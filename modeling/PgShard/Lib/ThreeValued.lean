import Mathlib

/-! Kleene's three-valued logic on `Option Bool`, with `none` for unknown. -/

namespace ThreeValued

def and : Option Bool → Option Bool → Option Bool
  | some false, _ => some false
  | _, some false => some false
  | some true, some true => some true
  | _, _ => none

def or : Option Bool → Option Bool → Option Bool
  | some true, _ => some true
  | _, some true => some true
  | some false, some false => some false
  | _, _ => none

def not : Option Bool → Option Bool := Option.map Bool.not

def all (ps : List (Option Bool)) : Option Bool := ps.foldr and (some true)

def any (ps : List (Option Bool)) : Option Bool := ps.foldr or (some false)

theorem and_eq_true {p q : Option Bool} : and p q = some true ↔ p = some true ∧ q = some true := by
  rcases p with _ | _ | _ <;> rcases q with _ | _ | _ <;> simp [and]

theorem or_eq_true {p q : Option Bool} : or p q = some true ↔ p = some true ∨ q = some true := by
  rcases p with _ | _ | _ <;> rcases q with _ | _ | _ <;> simp [or]

theorem all_eq_true {ps : List (Option Bool)} : all ps = some true ↔ ∀ p ∈ ps, p = some true := by
  induction ps with
  | nil => simp [all]
  | cons p rest ih =>
    have step : all (p :: rest) = and p (all rest) := rfl
    rw [step, and_eq_true, ih, List.forall_mem_cons]

theorem any_eq_true {ps : List (Option Bool)} : any ps = some true ↔ some true ∈ ps := by
  induction ps with
  | nil => simp [any]
  | cons p rest ih =>
    have step : any (p :: rest) = or p (any rest) := rfl
    rw [step, or_eq_true, ih, List.mem_cons, eq_comm]

end ThreeValued
