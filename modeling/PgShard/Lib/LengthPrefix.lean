import Mathlib

/-! Fields of any content put one behind the other, each behind its length. -/

namespace LengthPrefix

variable {α : Type*} (mark : α) (count : Nat → List α)

def field (content : List α) : List α :=
  count content.length ++ mark :: content

variable {mark} {count}

theorem append_mark_inj {u v x y : List α} (left : mark ∉ u) (right : mark ∉ v)
    (same : u ++ mark :: x = v ++ mark :: y) : u = v ∧ x = y := by
  induction u generalizing v with
  | nil =>
    cases v with
    | nil => exact ⟨rfl, (List.cons.inj same).2⟩
    | cons c v => exact absurd ((List.cons.inj same).1 ▸ List.mem_cons_self) right
  | cons c u ih =>
    cases v with
    | nil => exact absurd ((List.cons.inj same).1 ▸ List.mem_cons_self) left
    | cons d v =>
      obtain ⟨rfl, rest⟩ := List.cons.inj same
      rw [List.mem_cons, not_or] at left right
      obtain ⟨rfl, tails⟩ := ih left.2 right.2 rest
      exact ⟨rfl, tails⟩

theorem mark_append_inj {u v x y : List α} (left : mark ∉ x) (right : mark ∉ y)
    (same : u ++ mark :: x = v ++ mark :: y) : u = v ∧ x = y := by
  have reversed := congrArg List.reverse same
  simp only [List.reverse_append, List.reverse_cons, List.append_assoc, List.cons_append, List.nil_append] at reversed
  obtain ⟨behind, before⟩ := append_mark_inj (by simpa using left) (by simpa using right) reversed
  exact ⟨List.reverse_injective before, List.reverse_injective behind⟩

section

variable (unmarked : ∀ n, mark ∉ count n) (distinct : Function.Injective count)
include unmarked distinct

theorem field_append_inj {a b x y : List α} (same : field mark count a ++ x = field mark count b ++ y) :
    a = b ∧ x = y := by
  have cut : count a.length ++ mark :: (a ++ x) = count b.length ++ mark :: (b ++ y) := by
    simpa [field] using same
  obtain ⟨counts, contents⟩ := append_mark_inj (unmarked _) (unmarked _) cut
  exact List.append_inj contents (distinct counts)

theorem flatMap_field_inj {l m : List (List α)} (same : l.flatMap (field mark count) = m.flatMap (field mark count)) :
    l = m := by
  have nonempty : ∀ a : List α, field mark count a ≠ [] := by
    intro a
    simp [field]
  induction l generalizing m with
  | nil =>
    cases m with
    | nil => rfl
    | cons b m => exact absurd (List.append_eq_nil_iff.mp same.symm).1 (nonempty b)
  | cons a l ih =>
    cases m with
    | nil => exact absurd (List.append_eq_nil_iff.mp same).1 (nonempty a)
    | cons b m =>
      rw [List.flatMap_cons, List.flatMap_cons] at same
      obtain ⟨rfl, rest⟩ := field_append_inj unmarked distinct same
      rw [ih rest]

end

end LengthPrefix
