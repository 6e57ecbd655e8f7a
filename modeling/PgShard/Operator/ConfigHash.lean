import PgShard.Lib.LengthPrefix

/-! The hash of a rendered configuration (`pgconfig.go`): what is hashed determines the parameters and the sizes. -/

namespace PgShard.Operator

/-- A Go string, which may hold any bytes and is compared byte by byte. -/
abbrev GoString := List (Fin 256)

def ascii (text : List Char) : GoString :=
  text.map fun c => Fin.ofNat 256 c.toNat

/-- A `map[string]string`: its entries in some order, with one value for each key. -/
structure ParamMap where
  entries : List (GoString × GoString)
  distinct : (entries.map Prod.fst).Nodup

namespace ParamMap

def get (params : ParamMap) (key : GoString) : Option GoString :=
  params.entries.lookup key

def sortedKeys (params : ParamMap) : List GoString :=
  (params.entries.map Prod.fst).insertionSort (· ≤ ·)

end ParamMap

def hashField : GoString → GoString :=
  LengthPrefix.field (Fin.ofNat 256 ':'.toNat) fun n => ascii (Nat.toDigits 10 n)

def hashInput (params : ParamMap) (cpu memory : GoString) : GoString :=
  hashField (ascii ['c', 'p', 'u']) ++ hashField cpu ++ hashField (ascii ['m', 'e', 'm', 'o', 'r', 'y']) ++
    hashField memory ++ params.sortedKeys.flatMap fun k => hashField k ++ hashField ((params.get k).getD [])

def hashConfig (sha256Hex : GoString → String) (params : ParamMap) (cpu memory : GoString) : String :=
  sha256Hex (hashInput params cpu memory)

/-! ## Digits -/

theorem ascii_injective_of_digits {l m : List Char} (left : ∀ c ∈ l, c.isDigit = true)
    (right : ∀ c ∈ m, c.isDigit = true) (same : ascii l = ascii m) : l = m := by
  have back : ∀ c : Char, c.isDigit = true → Char.ofNat (Fin.ofNat 256 c.toNat).val = c := by
    intro c digit
    have small : c.toNat < 256 := by
      simp only [Char.isDigit, Bool.and_eq_true, decide_eq_true_eq] at digit
      exact lt_of_le_of_lt (UInt32.le_iff_toNat_le.mp digit.2) (by decide)
    rw [Fin.val_ofNat, Nat.mod_eq_of_lt small, Char.ofNat_toNat]
  have recover : ∀ l : List Char, (∀ c ∈ l, c.isDigit = true) → (ascii l).map (fun b => Char.ofNat b.val) = l := by
    intro l digits
    rw [ascii, List.map_map]
    exact (List.map_congr_left fun c member => back c (digits c member)).trans (List.map_id l)
  rw [← recover l left, same, recover m right]

theorem decimal_injective : Function.Injective fun n => ascii (Nat.toDigits 10 n) := by
  intro m n same
  have digits : ∀ n, ∀ c ∈ Nat.toDigits 10 n, c.isDigit = true := fun n c member =>
    Nat.isDigit_of_mem_toDigits (by decide) (by decide) member
  have texts := ascii_injective_of_digits (digits m) (digits n) same
  apply Nat.repr_injective
  rw [← String.toList_inj, Nat.toList_repr, Nat.toList_repr, texts]

theorem colon_not_decimal (n : Nat) : Fin.ofNat 256 ':'.toNat ∉ ascii (Nat.toDigits 10 n) := by
  intro member
  obtain ⟨c, inside, same⟩ := List.mem_map.mp member
  have digit := Nat.isDigit_of_mem_toDigits (by decide) (by decide) inside
  simp only [Char.isDigit, Bool.and_eq_true, decide_eq_true_eq] at digit
  have high : c.toNat ≤ 57 := UInt32.le_iff_toNat_le.mp digit.2
  have value := congrArg Fin.val same
  simp only [Fin.val_ofNat] at value
  have colon : ':'.toNat = 58 := rfl
  omega

theorem flatMap_hashField_inj {l m : List GoString} (same : l.flatMap hashField = m.flatMap hashField) : l = m :=
  LengthPrefix.flatMap_field_inj colon_not_decimal decimal_injective same

/-! ## The input as a list of fields -/

def ParamMap.pairs (params : ParamMap) : List GoString :=
  params.sortedKeys.flatMap fun k => [k, (params.get k).getD []]

theorem hashInput_eq (params : ParamMap) (cpu memory : GoString) : hashInput params cpu memory =
    ([ascii ['c', 'p', 'u'], cpu, ascii ['m', 'e', 'm', 'o', 'r', 'y'], memory] ++ params.pairs).flatMap hashField := by
  have pairs : params.pairs.flatMap hashField =
      params.sortedKeys.flatMap fun k => hashField k ++ hashField ((params.get k).getD []) := by
    rw [ParamMap.pairs, List.flatMap_assoc]
    simp
  rw [List.flatMap_append, pairs]
  simp [hashInput]

namespace ParamMap

variable {p q : ParamMap} {k : GoString}

theorem mem_sortedKeys : k ∈ p.sortedKeys ↔ (p.get k).isSome = true := by
  rw [sortedKeys, List.mem_insertionSort, get, List.lookup_isSome_iff]
  simp

theorem sortedKeys_congr (same : ∀ k, p.get k = q.get k) : p.sortedKeys = q.sortedKeys := by
  have perm : (p.entries.map Prod.fst).Perm (q.entries.map Prod.fst) := by
    rw [List.perm_ext_iff_of_nodup p.distinct q.distinct]
    intro k
    have members := (mem_sortedKeys (p := p) (k := k)).trans (by rw [same k, ← mem_sortedKeys])
    simpa [sortedKeys] using members
  exact List.Perm.eq_of_pairwise (fun _ _ _ _ => le_antisymm) (List.pairwise_insertionSort _ _)
    (List.pairwise_insertionSort _ _)
    ((List.perm_insertionSort _ _).trans (perm.trans (List.perm_insertionSort _ _).symm))

theorem pairs_inj {keys others : List GoString} {value value' : GoString → GoString}
    (same : (keys.flatMap fun k => [k, value k]) = others.flatMap fun k => [k, value' k]) :
    keys = others ∧ ∀ k ∈ keys, value k = value' k := by
  induction keys generalizing others with
  | nil =>
    cases others with
    | nil => exact ⟨rfl, nofun⟩
    | cons _ _ => cases same
  | cons k keys ih =>
    cases others with
    | nil => cases same
    | cons k' others =>
      simp only [List.flatMap_cons, List.cons_append, List.nil_append, List.cons.injEq] at same
      obtain ⟨rfl, values, rest⟩ := same
      obtain ⟨rfl, each⟩ := ih rest
      exact ⟨rfl, List.forall_mem_cons.mpr ⟨values, each⟩⟩

theorem get_eq_of_pairs (same : p.pairs = q.pairs) (k : GoString) : p.get k = q.get k := by
  obtain ⟨keys, values⟩ := pairs_inj same
  have present : (p.get k).isSome = true ↔ (q.get k).isSome = true := by
    rw [← mem_sortedKeys, ← mem_sortedKeys, keys]
  cases left : p.get k with
  | none =>
    cases right : q.get k with
    | none => rfl
    | some w => simp [left, right] at present
  | some v =>
    have value := values k (mem_sortedKeys.mpr (by rw [left]; rfl))
    cases right : q.get k with
    | none => simp [left, right] at present
    | some w =>
      rw [left, right] at value
      exact congrArg some value

end ParamMap

/-- What is hashed is the same exactly for the same parameters and sizes. -/
theorem hash_input_injective (p q : ParamMap) (cpu cpu' memory memory' : GoString) :
    hashInput p cpu memory = hashInput q cpu' memory' ↔
      (∀ k, p.get k = q.get k) ∧ cpu = cpu' ∧ memory = memory' := by
  constructor
  · intro same
    rw [hashInput_eq, hashInput_eq] at same
    have fields := flatMap_hashField_inj same
    simp only [List.cons_append, List.nil_append, List.cons.injEq, true_and] at fields
    obtain ⟨cpus, memories, pairs⟩ := fields
    exact ⟨ParamMap.get_eq_of_pairs pairs, cpus, memories⟩
  · rintro ⟨same, rfl, rfl⟩
    have keys := ParamMap.sortedKeys_congr same
    simp only [hashInput, keys, same]

end PgShard.Operator
