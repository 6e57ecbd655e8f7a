import Mathlib

/-! A bag changed through a condition that exactly one of its items meets. -/

namespace UniqueMatch

variable {α : Type*} {p : α → Bool} {x : α} {rest : Multiset α}

theorem others_fail (meets : p x = true) (one : (x ::ₘ rest).countP (p · = true) = 1) :
    ∀ y ∈ rest, p y = false := by
  rw [Multiset.countP_cons_of_pos rest (p := fun y => p y = true) meets] at one
  have none : rest.countP (p · = true) = 0 := by omega
  intro y member
  simpa using (Multiset.countP_eq_zero.mp none) y member

theorem map_update (meets : p x = true) (one : (x ::ₘ rest).countP (p · = true) = 1) (f : α → α) :
    ((x ::ₘ rest).map fun y => if p y then f y else y) = f x ::ₘ rest := by
  have same : (rest.map fun y => if p y then f y else y) = rest.map id :=
    Multiset.map_congr rfl fun y member => by simp [others_fail meets one y member]
  rw [Multiset.map_cons, same, Multiset.map_id, if_pos meets]

theorem filter_delete (meets : p x = true) (one : (x ::ₘ rest).countP (p · = true) = 1) :
    (x ::ₘ rest).filter (p · = false) = rest := by
  rw [Multiset.filter_cons_of_neg _ (by simp [meets])]
  exact Multiset.filter_eq_self.mpr (others_fail meets one)

end UniqueMatch
