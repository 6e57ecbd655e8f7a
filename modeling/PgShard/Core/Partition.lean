import PgShard.Core.Keyspace
import Mathlib

/-! The checks of `validate_partition` on ordered ranges say exactly that every id has
one owner. -/

namespace PgShard

variable {r first : KeyRange} {rest ranges : List KeyRange} {id : KeyspaceId} {index : Nat}

def KeyRange.Adjacent (a b : KeyRange) : Prop :=
  a.stop = some b.start

def owners (ranges : List KeyRange) (id : KeyspaceId) : Nat :=
  ranges.countP (·.contains id)

/-- `sort_by_key(|kr| kr.start())`, which is stable. -/
def sortByStart (ranges : List KeyRange) : List KeyRange :=
  ranges.insertionSort fun a b => a.start ≤ b.start

theorem owners_sortByStart : owners (sortByStart ranges) id = owners ranges id :=
  (List.perm_insertionSort _ ranges).countP_eq _

theorem sortByStart_ordered : (sortByStart ranges).Pairwise fun a b => a.start ≤ b.start :=
  List.pairwise_insertionSort _ ranges

theorem owners_cons_pos (inside : r.contains id = true) : owners (r :: rest) id = owners rest id + 1 :=
  List.countP_cons_of_pos inside

theorem owners_cons_neg (outside : ¬ r.contains id = true) : owners (r :: rest) id = owners rest id :=
  List.countP_cons_of_neg outside

theorem KeyRange.contains_start (r : KeyRange) : r.contains r.start = true :=
  KeyRange.contains_iff.mpr ⟨le_refl _, r.start_lt_endExclusive⟩

theorem KeyRange.not_contains_of_lt (below : id < r.start) : ¬ r.contains id = true :=
  fun inside => absurd (KeyRange.contains_iff.mp inside).1 (not_le.mpr below)

theorem KeyRange.contains_iff_of_stop {e : Fin (2 ^ 64)} (stop : r.stop = some e) :
    r.contains id = true ↔ r.start ≤ id ∧ id < e := by
  rw [KeyRange.contains_iff, KeyRange.endExclusive, stop]
  rfl

theorem KeyRange.contains_iff_of_open (stop : r.stop = none) : r.contains id = true ↔ r.start ≤ id := by
  rw [KeyRange.contains_iff, KeyRange.endExclusive, stop]
  exact and_iff_left id.isLt

theorem KeyRange.stop_eq_of_endExclusive {s : KeyRange} (same : r.endExclusive = s.endExclusive) : r.stop = s.stop := by
  unfold KeyRange.endExclusive at same
  cases left : r.stop <;> cases right : s.stop <;> simp only [left, right] at same ⊢ <;> grind

theorem owners_eq_zero (above : ∀ r ∈ ranges, id < r.start) : owners ranges id = 0 :=
  List.countP_eq_zero.mpr fun r member => KeyRange.not_contains_of_lt (above r member)

theorem validateWindows_iff : validateWindows index ranges = .ok () ↔ ranges.IsChain KeyRange.Adjacent := by
  fun_induction validateWindows index ranges with
  | case1 index a b rest adjacent ih =>
    rw [ih, List.isChain_cons_cons]
    exact (and_iff_right adjacent).symm
  | case2 index a b rest apart =>
    exact iff_of_false (fun valid => by cases valid) fun chain => apart (List.isChain_cons_cons.mp chain).1
  | case3 ranges index short =>
    refine iff_of_true rfl ?_
    match ranges with
    | [] => exact .nil
    | [r] => exact .singleton r
    | a :: b :: rest => exact absurd rfl (short a b rest)

theorem start_lt_of_chain (chain : (first :: rest).IsChain KeyRange.Adjacent) : ∀ r ∈ rest, first.start < r.start :=
  (List.pairwise_cons.mp (chain.imp fun a b adjacent => a.nonempty b.start adjacent).pairwise).1

theorem start_lt_end_of_chain (chain : (first :: rest).IsChain KeyRange.Adjacent) :
    first.start.val < ((first :: rest).getLast (List.cons_ne_nil first rest)).endExclusive := by
  set last := (first :: rest).getLast (List.cons_ne_nil first rest) with named
  have inside := last.start_lt_endExclusive
  rcases List.mem_cons.mp (List.getLast_mem (List.cons_ne_nil first rest)) with only | later
  · rw [← named] at only
    rwa [← only]
  · exact lt_trans (start_lt_of_chain chain last later) inside

theorem owners_chain (chain : (first :: rest).IsChain KeyRange.Adjacent) :
    owners (first :: rest) id = if first.start.val ≤ id.val ∧
      id.val < ((first :: rest).getLast (List.cons_ne_nil first rest)).endExclusive then 1 else 0 := by
  induction rest generalizing first with
  | nil =>
    rw [List.getLast_singleton]
    by_cases inside : first.contains id = true
    · rw [owners_cons_pos inside, if_pos (KeyRange.contains_iff.mp inside)]
      rfl
    · rw [owners_cons_neg inside, if_neg fun bounds => inside (KeyRange.contains_iff.mpr bounds)]
      rfl
  | cons next rest ih =>
    obtain ⟨adjacent, later⟩ := List.isChain_cons_cons.mp chain
    have contained := @KeyRange.contains_iff_of_stop first id _ adjacent
    have grows := first.nonempty _ adjacent
    rw [List.getLast_cons (List.cons_ne_nil next rest)]
    by_cases inside : first.contains id = true
    · obtain ⟨above, below⟩ := contained.mp inside
      rw [owners_cons_pos inside, ih later, if_neg, if_pos]
      · exact ⟨above, lt_trans below (start_lt_end_of_chain later)⟩
      · exact fun bounds => absurd below (not_lt.mpr bounds.1)
    · rw [owners_cons_neg inside, ih later]
      refine if_congr ⟨fun bounds => ⟨le_trans grows.le bounds.1, bounds.2⟩, fun span => ⟨?_, span.2⟩⟩ rfl rfl
      exact not_lt.mp fun below => inside (contained.mpr ⟨span.1, below⟩)

theorem chain_of_owners {top : Nat} (ordered : (first :: rest).Pairwise fun a b => a.start ≤ b.start) (fits : top ≤ 2 ^ 64)
    (low : first.start.val < top)
    (one : ∀ id, first.start ≤ id → owners (first :: rest) id = if id.val < top then 1 else 0) :
    (first :: rest).IsChain KeyRange.Adjacent ∧
      ((first :: rest).getLast (List.cons_ne_nil first rest)).endExclusive = top := by
  induction rest generalizing first with
  | nil =>
    refine ⟨.singleton first, ?_⟩
    have bound := first.endExclusive_le
    have grows := first.start_lt_endExclusive
    rcases lt_trichotomy first.endExclusive top with short | same | long
    · have := one ⟨first.endExclusive, by omega⟩ grows.le
      rw [owners_cons_neg fun inside => absurd (KeyRange.contains_iff.mp inside).2 (lt_irrefl _), if_pos short] at this
      cases this
    · exact same
    · have := one ⟨top, by omega⟩ low.le
      rw [owners_cons_pos (KeyRange.contains_iff.mpr ⟨low.le, long⟩), if_neg (lt_irrefl _)] at this
      cases this
  | cons next rest ih =>
    obtain ⟨before, orderedRest⟩ := List.pairwise_cons.mp ordered
    have nextAbove := before next List.mem_cons_self
    have atNext := one next.start nextAbove
    have nextLow : next.start.val < top := by
      by_contra high
      rw [if_neg high] at atNext
      exact List.countP_eq_zero.mp atNext next (by simp) next.contains_start
    rw [if_pos nextLow] at atNext
    have adjacent : first.stop = some next.start := by
      cases stop : first.stop with
      | none =>
        rw [owners_cons_pos ((KeyRange.contains_iff_of_open stop).mpr nextAbove),
          owners_cons_pos next.contains_start] at atNext
        omega
      | some e =>
        rcases lt_trichotomy e next.start with gap | same | overlap
        · have outside : ¬ first.contains e = true := fun inside =>
            absurd ((KeyRange.contains_iff_of_stop stop).mp inside).2 (lt_irrefl e)
          have atEnd := one e (first.nonempty e stop).le
          have none : owners (next :: rest) e = 0 := by
            refine owners_eq_zero fun r member => gap.trans_le ?_
            rcases List.mem_cons.mp member with rfl | later
            · exact le_refl _
            · exact (List.pairwise_cons.mp orderedRest).1 r later
          rw [owners_cons_neg outside, none, if_pos (lt_trans (Fin.lt_def.mp gap) nextLow)] at atEnd
          cases atEnd
        · rw [same]
        · rw [owners_cons_pos ((KeyRange.contains_iff_of_stop stop).mpr ⟨nextAbove, overlap⟩),
            owners_cons_pos next.contains_start] at atNext
          omega
    have oneLater : ∀ id, next.start ≤ id → owners (next :: rest) id = if id.val < top then 1 else 0 := by
      intro id above
      have outside : ¬ first.contains id = true := fun inside =>
        absurd ((KeyRange.contains_iff_of_stop adjacent).mp inside).2 (not_lt.mpr above)
      rw [← one id (nextAbove.trans above), owners_cons_neg outside]
    obtain ⟨chain, reaches⟩ := ih orderedRest nextLow oneLater
    exact ⟨List.isChain_cons_cons.mpr ⟨adjacent, chain⟩, reaches⟩

/-- Ordered ranges own exactly the ids of a range, each of them once, if and only if they are adjacent and run from its
start to its end. -/
theorem chain_iff_owners (ordered : (first :: rest).Pairwise fun a b => a.start ≤ b.start) :
    (first.start = r.start ∧ (first :: rest).IsChain KeyRange.Adjacent ∧
      ((first :: rest).getLast (List.cons_ne_nil first rest)).stop = r.stop) ↔
      ∀ id, owners (first :: rest) id = if r.contains id = true then 1 else 0 := by
  constructor
  · rintro ⟨start, chain, stop⟩ id
    rw [owners_chain chain, KeyRange.endExclusive, stop, start]
    exact if_congr KeyRange.contains_iff.symm rfl rfl
  · intro one
    have start : first.start = r.start := by
      refine le_antisymm (not_lt.mp fun above => ?_) (not_lt.mp fun below => ?_)
      · have none : owners (first :: rest) r.start = 0 := by
          refine owners_eq_zero fun s member => above.trans_le ?_
          rcases List.mem_cons.mp member with rfl | later
          · exact le_refl _
          · exact (List.pairwise_cons.mp ordered).1 s later
        rw [one, if_pos r.contains_start] at none
        cases none
      · have none := one first.start
        rw [if_neg (KeyRange.not_contains_of_lt below), owners_cons_pos first.contains_start] at none
        cases none
    obtain ⟨chain, reaches⟩ := chain_of_owners ordered r.endExclusive_le (start ▸ r.start_lt_endExclusive)
      fun id above => by
        rw [one]
        exact if_congr (KeyRange.contains_iff.trans (and_iff_right (start ▸ above))) rfl rfl
    exact ⟨start, chain, KeyRange.stop_eq_of_endExclusive reaches⟩

/-- Ordered ranges pass exactly if every id has one owner. -/
theorem validatePartition_iff (ordered : ranges.Pairwise fun a b => a.start ≤ b.start) :
    validatePartition ranges = .ok () ↔ ∀ id, owners ranges id = 1 := by
  cases ranges with
  | nil => exact iff_of_false (fun valid => by cases valid) fun one => by cases one 0
  | cons first rest =>
    rw [validatePartition_cons_iff, validateWindows_iff]
    refine (chain_iff_owners (r := KeyRange.full) ordered).trans (forall_congr' fun id => ?_)
    rw [if_pos (KeyRange.contains_iff.mpr ⟨Nat.zero_le _, id.isLt⟩)]

theorem validatePartition_owners (valid : validatePartition ranges = .ok ()) (id : KeyspaceId) : owners ranges id = 1 := by
  refine (validatePartition_iff ?_).mp valid id
  cases ranges with
  | nil => exact .nil
  | cons first rest =>
    have chain := validateWindows_iff.mp (validatePartition_cons_iff.mp valid).2.1
    exact (chain.imp fun a b adjacent => a.nonempty b.start adjacent).pairwise.imp le_of_lt

theorem validatePartition_covers (valid : validatePartition ranges = .ok ()) (id : KeyspaceId) :
    ∃ r ∈ ranges, r.contains id = true :=
  List.countP_pos_iff.mp (by rw [← owners, validatePartition_owners valid id]; exact Nat.one_pos)

theorem validatePartition_sortByStart_iff :
    validatePartition (sortByStart ranges) = .ok () ↔ ∀ id, owners ranges id = 1 := by
  rw [validatePartition_iff sortByStart_ordered]
  simp only [owners_sortByStart]

end PgShard
