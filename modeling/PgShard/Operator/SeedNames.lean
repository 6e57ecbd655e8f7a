import PgShard.Agent.Registry
import PgShard.Lib.LengthPrefix
import PgShard.Operator.Seeding

/-! The names of publications, slots and workflows of a reshard (`reshard_seeding.go`). -/

namespace PgShard.Operator

variable {c : Char} {r r' : Reshard} {i i' : Nat}

def lowerHex (c : Char) : Bool :=
  ('0' ≤ c ∧ c ≤ '9') ∨ ('a' ≤ c ∧ c ≤ 'f')

/-- A UID in the form of a lower-case UUID: groups of 8, 4, 4, 4 and 12 hex digits. -/
def isUuid (uid : String) : Bool :=
  uid.toList.length == 36 &&
    uid.toList.zipIdx.all fun (c, i) => if i ∈ [8, 13, 18, 23] then c == '-' else lowerHex c

def indexDigits (index : Nat) : List Char :=
  Nat.toDigits 10 index

/-! ## Characters -/

def identChar (c : Char) : Bool :=
  c.isAlphanum || c == '_'

theorem identChar_of_seedIdentChar (kept : seedIdentChar c = true) : identChar c = true := by
  simp only [seedIdentChar, Bool.decide_or, Bool.decide_and, Bool.or_eq_true, Bool.and_eq_true, decide_eq_true_eq] at kept
  simp only [identChar, Char.isAlphanum, Char.isAlpha, Char.isUpper, Char.isLower, Char.isDigit, Bool.or_eq_true,
    Bool.and_eq_true, decide_eq_true_eq, beq_iff_eq]
  rcases kept with lower | upper | digit | rfl
  · exact .inl (.inl (.inr lower))
  · exact .inl (.inl (.inl upper))
  · exact .inl (.inr digit)
  · exact .inr rfl

theorem identChar_ascii (safe : identChar c = true) : c.val ≤ 127 := by
  simp only [identChar, Char.isAlphanum, Char.isAlpha, Char.isUpper, Char.isLower, Char.isDigit, Bool.or_eq_true,
    Bool.and_eq_true, decide_eq_true_eq, beq_iff_eq] at safe
  rcases safe with ((⟨-, high⟩ | ⟨-, high⟩) | ⟨-, high⟩) | rfl
  · exact UInt32.le_trans high (by decide)
  · exact UInt32.le_trans high (by decide)
  · exact UInt32.le_trans high (by decide)
  · decide

theorem utf8ByteSize_of_ident {name : String} (safe : ∀ c ∈ name.toList, identChar c = true) :
    name.utf8ByteSize = name.toList.length := by
  obtain ⟨cs, rfl⟩ : ∃ cs, name = String.ofList cs := ⟨_, String.ofList_toList.symm⟩
  rw [String.toList_ofList] at safe ⊢
  induction cs with
  | nil => rfl
  | cons c cs ih =>
    obtain ⟨first, rest⟩ := List.forall_mem_cons.mp safe
    rw [String.ofList_cons, String.utf8ByteSize_append, String.utf8ByteSize_singleton, ih rest,
      Char.utf8Size_eq_one_iff.mpr (identChar_ascii first), List.length_cons, Nat.add_comm]

theorem seedIdent_ident (name : String) : ∀ c ∈ (seedIdent name).toList, identChar c = true := by
  intro c member
  rw [seedIdent, String.toList_ofList] at member
  obtain ⟨d, -, rfl⟩ := List.mem_map.mp member
  split_ifs with kept
  · exact identChar_of_seedIdentChar kept
  · decide

theorem length_seedIdent (name : String) : (seedIdent name).toList.length = name.toList.length := by
  rw [seedIdent, String.toList_ofList, List.length_map]

theorem isUuid_chars {uid : String} (uuid : isUuid uid = true) :
    uid.toList.length = 36 ∧ ∀ c ∈ uid.toList, c = '-' ∨ lowerHex c = true := by
  simp only [isUuid, Bool.and_eq_true, beq_iff_eq, List.all_eq_true] at uuid
  refine ⟨uuid.1, fun c member => ?_⟩
  obtain ⟨i, found⟩ := List.mem_iff_getElem?.mp member
  have held := uuid.2 (c, i) (List.mem_zipIdx_iff_getElem?.mpr found)
  dsimp only at held
  split_ifs at held
  · exact .inl (by simpa using held)
  · exact .inr held

theorem length_seedIdent_uuid {uid : String} (uuid : isUuid uid = true) : (seedIdent uid).toList.length = 36 :=
  (length_seedIdent uid).trans (isUuid_chars uuid).1

theorem seedIdentChar_uuid (shape : c = '-' ∨ lowerHex c = true) :
    (if seedIdentChar c then c else '_') = if c = '-' then '_' else c := by
  rcases shape with rfl | hex
  · decide
  · simp only [lowerHex, Bool.decide_or, Bool.decide_and, Bool.or_eq_true, Bool.and_eq_true, decide_eq_true_eq] at hex
    have kept : seedIdentChar c = true := by
      simp only [seedIdentChar, Bool.decide_or, Bool.decide_and, Bool.or_eq_true, Bool.and_eq_true, decide_eq_true_eq]
      rcases hex with digit | letter
      · exact .inr (.inr (.inl digit))
      · exact .inl ⟨letter.1, letter.2.trans (by decide)⟩
    have other : c ≠ '-' := by
      rintro rfl
      revert hex
      decide
    rw [if_pos kept, if_neg other]

theorem lowerHex_ne (hex : lowerHex c = true) : c ≠ '_' ∧ c ≠ 't' := by
  constructor <;> rintro rfl <;> revert hex <;> decide

theorem seedIdent_uuid_injective {uid uid' : String} (uuid : isUuid uid = true) (uuid' : isUuid uid' = true)
    (same : seedIdent uid = seedIdent uid') : uid = uid' := by
  have back : ∀ c : Char, c = '-' ∨ lowerHex c = true →
      (if (if seedIdentChar c then c else '_') = '_' then '-' else if seedIdentChar c then c else '_') = c := by
    intro c shape
    rw [seedIdentChar_uuid shape]
    rcases shape with rfl | hex
    · decide
    · have plain := (lowerHex_ne hex).1
      split_ifs <;> simp_all
  have recover : ∀ uid, isUuid uid = true →
      (seedIdent uid).toList.map (fun c => if c = '_' then '-' else c) = uid.toList := by
    intro uid uuid
    rw [seedIdent, String.toList_ofList, List.map_map]
    exact (List.map_congr_left fun c member => back c ((isUuid_chars uuid).2 c member)).trans (List.map_id _)
  rw [← String.toList_inj, ← recover uid uuid, same, recover uid' uuid']

theorem seedIdent_uuid_no_t {uid : String} (uuid : isUuid uid = true) : 't' ∉ (seedIdent uid).toList := by
  intro member
  rw [seedIdent, String.toList_ofList] at member
  obtain ⟨c, inside, same⟩ := List.mem_map.mp member
  have shape := (isUuid_chars uuid).2 c inside
  rw [seedIdentChar_uuid shape] at same
  split_ifs at same with hyphen
  · exact absurd same (by decide)
  · exact (lowerHex_ne (shape.resolve_left hyphen)).2 same

theorem indexDigits_isDigit (index : Nat) : ∀ c ∈ indexDigits index, c.isDigit = true :=
  fun _ member => Nat.isDigit_of_mem_toDigits (by decide) (by decide) member

/-! ## The names -/

theorem seedPublication_toList (uuid : isUuid r.uid = true) : (seedPublication r).toList =
    "pgshard_".toList ++ (seedIdent r.name).toList.take 13 ++ '_' :: (seedIdent r.uid).toList := by
  have size : (seedIdent r.uid).utf8ByteSize = 36 := by
    rw [utf8ByteSize_of_ident (seedIdent_ident r.uid), length_seedIdent_uuid uuid]
  simp only [seedPublication, size, String.toList_append, String.toList_ofList]
  simp [maxDatabaseNameBytes, seedSuffixReserve]

theorem seedWorkflowID_toList (r : Reshard) (i : Nat) :
    (seedWorkflowID r i).toList = (seedPublication r).toList ++ '_' :: 't' :: indexDigits i := by
  simp [seedWorkflowID, String.toList_append, indexDigits]

theorem seedPublication_ident (uuid : isUuid r.uid = true) : ∀ c ∈ (seedPublication r).toList, identChar c = true := by
  rw [seedPublication_toList uuid]
  have literal : ∀ c ∈ "pgshard_".toList, identChar c = true := List.all_eq_true.mp rfl
  intro c member
  rcases List.mem_append.mp member with front | back
  · rcases List.mem_append.mp front with system | name
    · exact literal c system
    · exact seedIdent_ident r.name c (List.mem_of_mem_take name)
  · rcases List.mem_cons.mp back with rfl | uid
    · rfl
    · exact seedIdent_ident r.uid c uid

theorem length_seedPublication (uuid : isUuid r.uid = true) : (seedPublication r).toList.length ≤ 58 := by
  rw [seedPublication_toList uuid]
  have literal : "pgshard_".toList.length = 8 := by decide
  simp only [List.length_append, List.length_take, List.length_cons, length_seedIdent_uuid uuid, literal]
  omega

theorem length_indexDigits (small : i < 128) : (indexDigits i).length ≤ 3 := by
  revert small
  revert i
  decide

theorem isSafeIdent_of_chars {name : String} (safe : ∀ c ∈ name.toList, identChar c = true)
    (short : name.toList.length ≤ 63) (nonempty : name.toList ≠ []) : Agent.isSafeIdent name = true := by
  have present : name ≠ "" := by
    rintro rfl
    exact nonempty rfl
  simp only [Agent.isSafeIdent, Bool.and_eq_true, bne_iff_ne, decide_eq_true_eq, List.all_eq_true]
  exact ⟨⟨present, utf8ByteSize_of_ident safe ▸ short⟩, safe⟩

theorem seedPublication_uid (uuid : isUuid r.uid = true) (uuid' : isUuid r'.uid = true)
    (same : seedPublication r = seedPublication r') : r.uid = r'.uid := by
  have lists := congrArg String.toList same
  rw [seedPublication_toList uuid, seedPublication_toList uuid'] at lists
  have lengths : ('_' :: (seedIdent r.uid).toList).length = ('_' :: (seedIdent r'.uid).toList).length := by
    rw [List.length_cons, List.length_cons, length_seedIdent_uuid uuid, length_seedIdent_uuid uuid']
  have uids := (List.cons.inj (List.append_inj' lists lengths).2).2
  exact seedIdent_uuid_injective uuid uuid' (String.toList_inj.mp uids)

theorem seedWorkflowID_inj (same : seedWorkflowID r i = seedWorkflowID r' i') :
    seedPublication r = seedPublication r' ∧ i = i' := by
  have lists := congrArg String.toList same
  rw [seedWorkflowID_toList, seedWorkflowID_toList, List.append_cons, List.append_cons (seedPublication r').toList] at lists
  have no_t : ∀ i, 't' ∉ indexDigits i := fun i member => absurd (indexDigits_isDigit i _ member) (by decide)
  obtain ⟨names, digits⟩ := LengthPrefix.mark_append_inj (no_t i) (no_t i') lists
  refine ⟨String.toList_inj.mp (List.append_cancel_right names), ?_⟩
  apply Nat.repr_injective
  rw [← String.toList_inj, Nat.toList_repr, Nat.toList_repr]
  exact digits

theorem seedPublication_ne_workflowID (uuid : isUuid r.uid = true) (small : i < 128) :
    seedPublication r ≠ seedWorkflowID r' i := by
  intro same
  have lists := congrArg (fun s => s.toList.reverse) same
  simp only [seedWorkflowID_toList, seedPublication_toList uuid, List.reverse_append, List.reverse_cons,
    List.append_assoc, List.cons_append, List.nil_append] at lists
  have short := length_indexDigits small
  have long : (seedIdent r.uid).toList.reverse.length = 36 := by
    rw [List.length_reverse, length_seedIdent_uuid uuid]
  have mark := congrArg (fun l => l[(indexDigits i).reverse.length]?) lists
  rw [List.getElem?_append_left (by rw [long, List.length_reverse]; omega), List.getElem?_append_right le_rfl,
    Nat.sub_self] at mark
  exact seedIdent_uuid_no_t uuid (List.mem_reverse.mp (List.mem_of_getElem? mark))

/-- The names are safe identifiers of the agent under the prefix of the system, whatever the name of the reshard; they
differ if the UIDs or the indices do, and no publication is named as a workflow. -/
theorem seed_names_safe (r r' : Reshard) (uuid : isUuid r.uid = true) (uuid' : isUuid r'.uid = true) (i i' : Nat)
    (small : i < 128) (small' : i' < 128) :
    (Agent.isSafeIdent (seedPublication r) = true ∧ Agent.isSafeIdent (seedWorkflowID r i) = true) ∧
    ("pgshard_".toList <+: (seedPublication r).toList ∧ "pgshard_".toList <+: (seedWorkflowID r i).toList) ∧
    (r.uid ≠ r'.uid → seedPublication r ≠ seedPublication r') ∧
    (r.uid ≠ r'.uid ∨ i ≠ i' → seedWorkflowID r i ≠ seedWorkflowID r' i') ∧
    seedPublication r ≠ seedWorkflowID r' i' := by
  have short := length_seedPublication uuid
  have digits := length_indexDigits small
  have safe := seedPublication_ident uuid
  have start : "pgshard_".toList <+: (seedPublication r).toList := by
    rw [seedPublication_toList uuid, List.append_assoc]
    exact List.prefix_append _ _
  have nonempty : (seedPublication r).toList ≠ [] := fun empty => by simp [empty] at start
  refine ⟨⟨isSafeIdent_of_chars safe (by omega) nonempty, isSafeIdent_of_chars ?_ ?_ ?_⟩, ⟨start, ?_⟩,
    fun uids same => uids (seedPublication_uid uuid uuid' same), fun differ same => ?_,
    seedPublication_ne_workflowID uuid small'⟩
  · rw [seedWorkflowID_toList]
    simp only [List.forall_mem_append, List.forall_mem_cons]
    refine ⟨safe, by decide, by decide, fun c member => ?_⟩
    simp [identChar, Char.isAlphanum, indexDigits_isDigit i c member]
  · rw [seedWorkflowID_toList, List.length_append, List.length_cons, List.length_cons]
    omega
  · rw [seedWorkflowID_toList]
    simp
  · rw [seedWorkflowID_toList]
    exact start.trans (List.prefix_append _ _)
  · obtain ⟨publications, indices⟩ := seedWorkflowID_inj same
    exact differ.elim (fun uids => uids (seedPublication_uid uuid uuid' publications)) fun other => other indices

def longNamed (uid : String) : Reshard where
  name := "customers-eu-central.2026-11"
  uid := uid
  spec := { clusterRef := "main", sourceShard := "s0", targetRanges := [] }

theorem seed_names_safe_long : isUuid "0f8fad5b-d9cb-469f-a165-70867728950e" = true ∧
    seedWorkflowID (longNamed "0f8fad5b-d9cb-469f-a165-70867728950e") 127 =
      "pgshard_customers_eu__0f8fad5b_d9cb_469f_a165_70867728950e_t127" ∧
    Agent.isSafeIdent (seedWorkflowID (longNamed "0f8fad5b-d9cb-469f-a165-70867728950e") 127) = true := by
  have uuid : isUuid "0f8fad5b-d9cb-469f-a165-70867728950e" = true := by decide +kernel
  exact ⟨uuid, by decide +kernel, (seed_names_safe (longNamed _) (longNamed _) uuid uuid 127 0 (by decide) (by decide)).1.2⟩

end PgShard.Operator
