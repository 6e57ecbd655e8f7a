import Mathlib

/-! Scanning a list for its best item, of which the first is kept. -/

namespace Selection

variable {α β κ : Type*} {eligible : α → Bool} {better : α → α → Bool}

def keep (eligible : α → Bool) (better : α → α → Bool) (best : Option α) (x : α) : Option α :=
  if eligible x && best.all (better x) then some x else best

def scan (eligible : α → Bool) (better : α → α → Bool) (l : List α) : Option α := l.foldl (keep eligible better) none

variable [LinearOrder κ] {key : α → κ} (ranks : ∀ a b, better a b = true ↔ key b < key a)

/-- An eligible item that no eligible item of the list is better than. -/
structure Best (eligible : α → Bool) (key : α → κ) (l : List α) (x : α) : Prop where
  mem : x ∈ l
  able : eligible x = true
  top : ∀ y ∈ l, eligible y = true → key y ≤ key x

/-- The state of a scan after a part of the list: nothing eligible yet, or a best item of it. -/
def Scanned (eligible : α → Bool) (key : α → κ) (l : List α) : Option α → Prop
  | none => ∀ y ∈ l, eligible y = false
  | some x => Best eligible key l x

include ranks in
theorem Scanned.keep {l : List α} {best : Option α} (scanned : Scanned eligible key l best) (x : α) :
    Scanned eligible key (l ++ [x]) (Selection.keep eligible better best x) := by
  unfold Selection.keep
  cases best with
  | none =>
    cases able : eligible x with
    | false =>
      intro y member
      rcases List.mem_append.mp member with old | new
      · exact scanned y old
      · rw [List.mem_singleton.mp new, able]
    | true =>
      refine ⟨by simp, able, fun y member ok => ?_⟩
      rcases List.mem_append.mp member with old | new
      · simp [scanned y old] at ok
      · rw [List.mem_singleton.mp new]
  | some b =>
    by_cases wins : eligible x = true ∧ key b < key x
    · have taken : (eligible x && (some b).all (better x)) = true := by simp [wins.1, ranks, wins.2]
      rw [if_pos taken]
      refine ⟨by simp, wins.1, fun y member ok => ?_⟩
      rcases List.mem_append.mp member with old | new
      · exact (scanned.top y old ok).trans wins.2.le
      · rw [List.mem_singleton.mp new]
    · have kept : ¬ (eligible x && (some b).all (better x)) = true := by simpa [ranks] using wins
      rw [if_neg kept]
      refine ⟨List.mem_append_left _ scanned.mem, scanned.able, fun y member ok => ?_⟩
      rcases List.mem_append.mp member with old | new
      · exact scanned.top y old ok
      · rw [List.mem_singleton.mp new] at ok ⊢
        exact not_lt.mp fun higher => wins ⟨ok, higher⟩

include ranks in
theorem scanned_foldl {l m : List α} {best : Option α} (scanned : Scanned eligible key l best) :
    Scanned eligible key (l ++ m) (m.foldl (keep eligible better) best) := by
  induction m generalizing l best with
  | nil => simpa using scanned
  | cons x rest ih =>
    rw [List.foldl_cons, List.append_cons]
    exact ih (scanned.keep ranks x)

include ranks in
theorem scanned_scan (l : List α) : Scanned eligible key l (scan eligible better l) := by
  have start : Scanned eligible key [] none := fun y member => by cases member
  exact scanned_foldl ranks start

include ranks in
theorem best_of_scan {l : List α} {x : α} (found : scan eligible better l = some x) : Best eligible key l x := by
  have scanned := @scanned_scan _ _ eligible _ _ _ ranks l
  rwa [found] at scanned

include ranks in
theorem scan_cons_of_best {l : List α} {x : α} (best : Best eligible key (x :: l) x) :
    scan eligible better (x :: l) = some x := by
  have stays : ∀ m : List α, (∀ y ∈ m, eligible y = true → key y ≤ key x) →
      m.foldl (keep eligible better) (some x) = some x := by
    intro m below
    induction m with
    | nil => rfl
    | cons y rest ih =>
      have kept : keep eligible better (some x) y = some x := by
        have lower := below y List.mem_cons_self
        unfold keep
        rw [if_neg]
        simpa [ranks] using lower
      rw [List.foldl_cons, kept]
      exact ih fun z member => below z (List.mem_cons_of_mem _ member)
  have first : keep eligible better none x = some x := by simp [keep, best.able]
  rw [scan, List.foldl_cons, first]
  exact stays l fun y member => best.top y (List.mem_cons_of_mem _ member)

theorem Best.perm {l m : List α} {x : α} (perm : l.Perm m) (best : Best eligible key l x) : Best eligible key m x where
  mem := perm.subset best.mem
  able := best.able
  top y member := best.top y (perm.symm.subset member)

theorem Best.same_key {l : List α} {x y : α} (first : Best eligible key l x) (second : Best eligible key l y) :
    key x = key y :=
  le_antisymm (second.top x first.mem first.able) (first.top y second.mem second.able)

include ranks in
theorem scan_map_perm {l m : List α} (perm : l.Perm m) {f : α → β}
    (same : ∀ x y, Best eligible key l x → Best eligible key l y → f x = f y) :
    (scan eligible better l).map f = (scan eligible better m).map f := by
  have left := @scanned_scan _ _ eligible _ _ _ ranks l
  have right := @scanned_scan _ _ eligible _ _ _ ranks m
  cases first : scan eligible better l with
  | none =>
    cases second : scan eligible better m with
    | none => rfl
    | some y =>
      rw [first] at left
      have best : Best eligible key m y := by rwa [second] at right
      cases (left y (perm.symm.subset best.mem)).symm.trans best.able
  | some x =>
    have best : Best eligible key l x := by rwa [first] at left
    cases second : scan eligible better m with
    | none =>
      rw [second] at right
      have none := right x (perm.subset best.mem)
      simp [best.able] at none
    | some y =>
      have other : Best eligible key m y := by rwa [second] at right
      exact congrArg some (same x y best (other.perm perm.symm))

end Selection
