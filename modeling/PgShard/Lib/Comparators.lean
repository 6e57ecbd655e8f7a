import Mathlib

/-! Comparison functions on optional values and on tuples, and lists sorted by them. -/

namespace Comparators

open Std

variable {α β : Type}

/-- Absent values come before or after all others. A descending order turns the present ones around, not the absent. -/
def nullable (cmp : α → α → Ordering) (descending absentFirst : Bool) : Option α → Option α → Ordering
  | none, none => .eq
  | none, some _ => if absentFirst then .lt else .gt
  | some _, none => if absentFirst then .gt else .lt
  | some a, some b => if descending then cmp b a else cmp a b

/-- Tuples by the first position that tells them apart; a missing component is the default. -/
def lexicographic (default : α) : List (α → α → Ordering) → List α → List α → Ordering
  | [], _, _ => .eq
  | cmp :: cmps, as, bs =>
    (cmp (as.headD default) (bs.headD default)).then (lexicographic default cmps as.tail bs.tail)

theorem comap_trans (f : β → α) {cmp : α → α → Ordering} (lawful : TransCmp cmp) :
    TransCmp fun a b => cmp (f a) (f b) where
  eq_swap := lawful.eq_swap
  isLE_trans := lawful.isLE_trans

theorem nullable_trans {cmp : α → α → Ordering} (lawful : TransCmp cmp) (descending absentFirst : Bool) :
    TransCmp (nullable cmp descending absentFirst) where
  eq_swap {a b} := by
    rcases a with _ | a <;> rcases b with _ | b
    · rfl
    · cases absentFirst <;> rfl
    · cases absentFirst <;> rfl
    · simp only [nullable]
      split_ifs <;> exact lawful.eq_swap
  isLE_trans {a b c} first second := by
    rcases a with _ | a <;> rcases b with _ | b <;> rcases c with _ | c
    case some.some.some =>
      simp only [nullable] at first second ⊢
      split_ifs at first second ⊢
      · exact lawful.isLE_trans second first
      · exact lawful.isLE_trans first second
    all_goals cases absentFirst <;> simp_all [nullable]

theorem lexicographic_trans (default : α) (cmps : List (α → α → Ordering)) (lawful : ∀ cmp ∈ cmps, TransCmp cmp) :
    TransCmp (lexicographic default cmps) := by
  induction cmps with
  | nil => exact { eq_swap := rfl, isLE_trans := fun _ _ => rfl }
  | cons cmp cmps ih =>
    rw [List.forall_mem_cons] at lawful
    have first := comap_trans (fun as : List α => as.headD default) lawful.1
    have rest := comap_trans List.tail (ih lawful.2)
    exact inferInstanceAs (TransCmp (compareLex _ _))

theorem isLE_transitive {cmp : α → α → Ordering} (lawful : TransCmp cmp) (a b c : α) :
    (cmp a b).isLE = true → (cmp b c).isLE = true → (cmp a c).isLE = true :=
  lawful.isLE_trans

theorem isLE_total {cmp : α → α → Ordering} (lawful : TransCmp cmp) (a b : α) :
    ((cmp a b).isLE || (cmp b a).isLE) = true := by
  rw [Bool.or_eq_true, or_iff_not_imp_left]
  intro greater
  rw [OrientedCmp.lt_of_not_isLE greater]
  rfl

theorem pairwise_mergeSort {cmp : α → α → Ordering} (lawful : TransCmp cmp) (l : List α) :
    (l.mergeSort fun a b => (cmp a b).isLE).Pairwise fun a b => (cmp a b).isLE = true :=
  List.pairwise_mergeSort (isLE_transitive lawful) (isLE_total lawful) l

theorem stable_mergeSort {cmp : α → α → Ordering} (lawful : TransCmp cmp) {l : List α} {a b : α}
    (ordered : (cmp a b).isLE = true) (before : [a, b].Sublist l) :
    [a, b].Sublist (l.mergeSort fun a b => (cmp a b).isLE) :=
  List.pair_sublist_mergeSort (isLE_transitive lawful) (isLE_total lawful) ordered before

end Comparators
