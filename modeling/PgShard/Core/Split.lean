import PgShard.Core.KeyRangeText
import PgShard.Core.Partition

/-! The even split of a range partitions it. -/

namespace PgShard.KeyRange

variable {r : KeyRange} {parts : Fin (2 ^ 32)} {i : Nat}

def fields (r : KeyRange) : RangeFields :=
  ⟨r.start, r.stop⟩

theorem cut_succ (positive : 0 < parts.val) : r.cut parts.val i + r.width / parts.val ≤ r.cut parts.val (i + 1) ∧
    r.cut parts.val (i + 1) ≤ r.cut parts.val i + r.width / parts.val + 1 := by
  have divided := Nat.add_div (a := i * r.width) (b := r.width) positive
  rw [← Nat.add_one_mul] at divided
  unfold cut
  split_ifs at divided <;> omega

section Wide

variable (wide : parts.val ≤ r.width) (inner : i < parts.val)
include wide inner

theorem cut_lt_succ : r.cut parts.val i < r.cut parts.val (i + 1) := by
  have := (cut_succ (r := r) (i := i) (by omega : 0 < parts.val)).1
  have := Nat.div_pos wide (by omega)
  omega

theorem part_start : (r.part parts.val i).start.val = r.cut parts.val i :=
  Nat.mod_eq_of_lt ((cut_lt (by omega) inner).trans_le r.endExclusive_le)

theorem part_nonempty : ∀ e, (r.part parts.val i).stop = some e → (r.part parts.val i).start < e := by
  intro e stop
  rw [Fin.lt_def, part_start wide inner]
  simp only [part] at stop
  split_ifs at stop with last
  · have below : r.cut parts.val i < r.endExclusive := cut_lt (by omega) inner
    rwa [endExclusive, stop] at below
  · cases stop
    have later := part_start wide (by omega : i + 1 < parts.val)
    exact (cut_lt_succ wide inner).trans_eq later.symm

end Wide

def partRange (r : KeyRange) (parts : Fin (2 ^ 32)) (wide : parts.val ≤ r.width) (i : Fin parts.val) : KeyRange :=
  ⟨(r.part parts.val i).start, (r.part parts.val i).stop, part_nonempty wide i.isLt⟩

variable (wide : parts.val ≤ r.width)
include wide

theorem partRange_endExclusive (i : Fin parts.val) : (r.partRange parts wide i).endExclusive = r.cut parts.val (i + 1) := by
  by_cases last : i.val + 1 = parts.val
  · simp only [endExclusive, partRange, part, if_pos last]
    rw [last]
    exact (cut_last (by omega)).symm
  · simp only [endExclusive, partRange, part, if_neg last]
    exact part_start wide (by omega)

theorem partRange_chain : (List.ofFn (r.partRange parts wide)).IsChain Adjacent := by
  refine List.isChain_ofFn.mpr fun i inner => ?_
  simp only [Adjacent, partRange, part]
  rw [if_neg (by omega)]

theorem partRange_owners (positive : 0 < parts.val) (id : KeyspaceId) :
    owners (List.ofFn (r.partRange parts wide)) id = if r.contains id = true then 1 else 0 := by
  have chain := partRange_chain wide
  have nonempty : List.ofFn (r.partRange parts wide) ≠ [] := by simpa using positive.ne'
  have head := List.head_ofFn nonempty
  have last := congrArg endExclusive (List.getLast_ofFn nonempty)
  rw [partRange_endExclusive] at last
  have end' : r.cut parts.val (parts.val - 1 + 1) = r.endExclusive := by
    rw [Nat.sub_add_cancel positive, cut_last positive]
  have start : (r.partRange parts wide ⟨0, positive⟩).start.val = r.start.val := by
    rw [partRange, part_start wide positive, cut, Nat.zero_mul, Nat.zero_div, Nat.add_zero]
  obtain ⟨first, rest, listed⟩ := List.exists_cons_of_ne_nil nonempty
  simp only [listed, List.head_cons] at chain head last ⊢
  rw [owners_chain chain, last, end', head, start]
  exact if_congr contains_iff.symm rfl rfl

theorem partRange_width (i : Fin parts.val) : r.width / parts.val ≤ (r.partRange parts wide i).width ∧
    (r.partRange parts wide i).width ≤ r.width / parts.val + 1 := by
  have := cut_succ (r := r) (i := i) (Nat.zero_lt_of_lt i.isLt)
  have start : (r.partRange parts wide i).start.val = r.cut parts.val i := part_start wide i.isLt
  have sum := (r.partRange parts wide i).start_add_width
  rw [partRange_endExclusive, start] at sum
  omega

omit wide

/-- From one part up to a part for each id, the split gives that many ranges, none of them empty, each starting where
the one before ends, of widths that differ by one at most, and each id of the range in exactly one of them with no id
from outside. Any other number of parts is refused, and no arithmetic overflows. -/
theorem split_evenly_partitions (r : KeyRange) (parts : Fin (2 ^ 32)) :
    if 1 ≤ parts.val ∧ parts.val ≤ r.width then
      ∃ ranges : List KeyRange, r.splitEvenly parts = .ok (ranges.map fields) ∧ ranges.length = parts.val ∧
        ranges.IsChain Adjacent ∧ (∀ id, owners ranges id = if r.contains id = true then 1 else 0) ∧
        ∀ a ∈ ranges, ∀ b ∈ ranges, a.width ≤ b.width + 1
    else r.splitEvenly parts = .error (.error (.invalidSplit parts.val)) := by
  rw [splitEvenly_eq]
  split_ifs with accepted refused refused
  · omega
  · have wide := accepted.2
    refine ⟨List.ofFn (r.partRange parts wide), ?_, List.length_ofFn, partRange_chain wide,
      partRange_owners wide accepted.1, ?_⟩
    · rw [List.map_ofFn]
      refine congrArg _ (List.ext_getElem (by simp) fun i _ _ => ?_)
      simp [fields, partRange]
    · intro a memberA b memberB
      obtain ⟨i, rfl⟩ := List.mem_ofFn.mp memberA
      obtain ⟨j, rfl⟩ := List.mem_ofFn.mp memberB
      exact (partRange_width wide i).2.trans (Nat.add_le_add_right (partRange_width wide j).1 1)
  · rfl
  · omega

end PgShard.KeyRange
