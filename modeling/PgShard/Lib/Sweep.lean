import Mathlib

/-! Removal from a vector by its last entry, and the loop that removes all entries that
are due this way. -/

namespace Sweep

variable {α : Type*} {x : α} {l : List α} {i n : Nat} {due : α → Bool}

def swapRemove (l : List α) (i : Nat) : List α :=
  match l.getLast? with
  | none => l
  | some last => (l.set i last).dropLast

/-- From index `i` on, a due entry is removed and its index visited again. What stays,
and what was removed, in the order of its removal. -/
def sweep (due : α → Bool) : Nat → Nat → List α → List α × List α
  | 0, _, l => (l, [])
  | n + 1, i, l =>
    match l[i]? with
    | none => (l, [])
    | some x =>
      if due x then
        let rest := sweep due n i (swapRemove l i)
        (rest.1, x :: rest.2)
      else sweep due n (i + 1) l

/-- The loop over the whole vector: each round removes an entry or passes one. -/
def sweepAll (due : α → Bool) (l : List α) : List α × List α :=
  sweep due l.length 0 l

theorem swapRemove_append (front : List α) (last : α) :
    swapRemove (front ++ [last]) i = if i < front.length then front.set i last else front := by
  simp only [swapRemove, List.getLast?_append, List.getLast?_singleton, Option.some_or]
  split_ifs with inside
  · rw [List.set_append_left _ _ inside, List.dropLast_concat]
  · rw [List.set_append_right _ _ (not_lt.mp inside)]
    cases i - front.length with
    | zero => rw [List.set_cons_zero, List.dropLast_concat]
    | succ k => rw [List.set_cons_succ, List.set_nil, List.dropLast_concat]

theorem swapRemove_perm (found : l[i]? = some x) : (x :: swapRemove l i).Perm l := by
  rcases List.eq_nil_or_concat l with rfl | ⟨front, last, rfl⟩
  · cases found
  rw [List.concat_eq_append] at found ⊢
  rw [swapRemove_append]
  split_ifs with inside
  · rw [List.getElem?_append_left inside] at found
    obtain ⟨_, rfl⟩ := List.getElem?_eq_some_iff.mp found
    calc (front[i] :: front.set i last).Perm (front[i] :: last :: front.eraseIdx i) :=
          (List.set_perm_cons_eraseIdx inside last).cons _
      _ |>.Perm (last :: front[i] :: front.eraseIdx i) := .swap _ _ _
      _ |>.Perm (last :: front) := (List.getElem_cons_eraseIdx_perm inside).cons _
      _ |>.Perm (front ++ [last]) := (List.perm_append_singleton last front).symm
  · rw [List.getElem?_append_right (not_lt.mp inside), List.getElem?_singleton] at found
    split_ifs at found
    cases found
    exact (List.perm_append_singleton x front).symm

theorem length_swapRemove (found : l[i]? = some x) : (swapRemove l i).length + 1 = l.length :=
  (swapRemove_perm found).length_eq

theorem take_swapRemove (found : l[i]? = some x) : (swapRemove l i).take i = l.take i := by
  rcases List.eq_nil_or_concat l with rfl | ⟨front, last, rfl⟩
  · cases found
  obtain ⟨inside, _⟩ := List.getElem?_eq_some_iff.mp found
  rw [List.concat_eq_append] at inside ⊢
  rw [swapRemove_append]
  have short : i ≤ front.length := by simpa [Nat.lt_succ_iff] using inside
  rw [List.take_append_of_le_length short]
  split_ifs
  · exact List.take_set_of_le (Nat.le_refl i)
  · rfl

theorem sweep_perm : ((sweep due n i l).1 ++ (sweep due n i l).2).Perm l := by
  induction n generalizing i l with
  | zero => simp [sweep]
  | succ n ih =>
    simp only [sweep]
    cases found : l[i]? with
    | none => simp
    | some x =>
      simp only
      split_ifs
      · exact List.perm_middle.trans ((ih.cons x).trans (swapRemove_perm found))
      · exact ih

theorem sweep_due (member : x ∈ (sweep due n i l).2) : due x = true := by
  induction n generalizing i l with
  | zero => simp [sweep] at member
  | succ n ih =>
    simp only [sweep] at member
    cases found : l[i]? with
    | none => simp [found] at member
    | some y =>
      simp only [found] at member
      split_ifs at member with dueNow
      · rcases List.mem_cons.mp member with rfl | later
        · exact dueNow
        · exact ih later
      · exact ih member

theorem sweep_stays (rounds : l.length ≤ i + n) (passed : ∀ y ∈ l.take i, due y = false)
    (member : x ∈ (sweep due n i l).1) : due x = false := by
  induction n generalizing i l with
  | zero => exact passed x (by rwa [List.take_of_length_le (by omega)])
  | succ n ih =>
    simp only [sweep] at member
    cases found : l[i]? with
    | none =>
      simp only [found] at member
      exact passed x (by rwa [List.take_of_length_le (List.getElem?_eq_none_iff.mp found)])
    | some y =>
      simp only [found] at member
      split_ifs at member with dueNow
      · have shorter := length_swapRemove found
        refine ih (by omega) ?_ member
        rwa [take_swapRemove found]
      · refine ih (by omega) ?_ member
        intro z before
        rw [List.take_add_one, found] at before
        rcases List.mem_append.mp before with earlier | here
        · exact passed z earlier
        · rw [List.mem_singleton.mp here]
          simpa using dueNow

theorem sweepAll_perm : ((sweepAll due l).1 ++ (sweepAll due l).2).Perm l :=
  sweep_perm

theorem sweepAll_due (member : x ∈ (sweepAll due l).2) : due x = true :=
  sweep_due member

theorem sweepAll_stays (member : x ∈ (sweepAll due l).1) : due x = false :=
  sweep_stays (by omega) (by simp) member

theorem sweepAll_kept : (sweepAll due l).1.Perm (l.filter (!due ·)) := by
  have split := (@sweepAll_perm _ l due).filter (!due ·)
  rw [List.filter_append] at split
  have kept : (sweepAll due l).1.filter (!due ·) = (sweepAll due l).1 :=
    List.filter_eq_self.mpr fun x member => by simp [sweepAll_stays member]
  have gone : (sweepAll due l).2.filter (!due ·) = [] :=
    List.filter_eq_nil_iff.mpr fun x member => by simp [sweepAll_due member]
  rwa [kept, gone, List.append_nil] at split

theorem sweepAll_removed : (sweepAll due l).2.Perm (l.filter due) := by
  have split := (@sweepAll_perm _ l due).filter due
  rw [List.filter_append] at split
  have kept : (sweepAll due l).1.filter due = [] :=
    List.filter_eq_nil_iff.mpr fun x member => by simp [sweepAll_stays member]
  have gone : (sweepAll due l).2.filter due = (sweepAll due l).2 :=
    List.filter_eq_self.mpr fun x member => sweepAll_due member
  rwa [kept, gone, List.nil_append] at split

end Sweep
