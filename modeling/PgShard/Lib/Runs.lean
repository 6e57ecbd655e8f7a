import Mathlib

/-! Runs of a transition system and the invariant rule for them. -/

namespace Runs

variable {State : Type*}

/-- The states a run from an initial state can be in. -/
inductive Reachable (init : State → Prop) (step : State → State → Prop) : State → Prop
  | start {s : State} : init s → Reachable init step s
  | next {s t : State} : Reachable init step s → step s t → Reachable init step t

variable {init : State → Prop} {step : State → State → Prop}

theorem Reachable.invariant {inv : State → Prop} (atStart : ∀ s, init s → inv s)
    (kept : ∀ s t, inv s → step s t → inv t) {s : State} (reach : Reachable init step s) : inv s := by
  induction reach with
  | start initial => exact atStart _ initial
  | next _ taken ih => exact kept _ _ ih taken

/-! ## Systems whose steps are chosen -/

variable {Choice : Type*}

/-- The states of the runs from `start` all of whose choices are allowed. -/
inductive Under (step : State → Choice → Option State) (allowed : State → Choice → Bool) (start : State) : State → Prop
  | start : Under step allowed start start
  | next {s t : State} {c : Choice} : Under step allowed start s → allowed s c = true → step s c = some t →
      Under step allowed start t

/-- One run, as long as each choice is allowed and possible. -/
def exec (step : State → Choice → Option State) (allowed : State → Choice → Bool) (s : State) (choices : List Choice) :
    Option State :=
  choices.foldlM (fun s c => if allowed s c then step s c else none) s

namespace Under

variable {step : State → Choice → Option State} {allowed : State → Choice → Bool} {start s t : State}

theorem invariant {inv : State → Prop} (atStart : inv start)
    (kept : ∀ s c t, inv s → allowed s c = true → step s c = some t → inv t) (reached : Under step allowed start s) :
    inv s := by
  induction reached with
  | start => exact atStart
  | next _ permitted taken ih => exact kept _ _ _ ih permitted taken

theorem mono {larger : State → Choice → Bool} (included : ∀ s c, allowed s c = true → larger s c = true)
    (reached : Under step allowed start s) : Under step larger start s := by
  induction reached with
  | start => exact .start
  | next _ permitted taken ih => exact .next ih (included _ _ permitted) taken

theorem exec {choices : List Choice} (reached : Under step allowed start s)
    (ran : Runs.exec step allowed s choices = some t) : Under step allowed start t := by
  induction choices generalizing s with
  | nil =>
    cases ran
    exact reached
  | cons c rest ih =>
    simp only [Runs.exec, List.foldlM_cons] at ran
    obtain ⟨next, taken, ran⟩ := Option.bind_eq_some_iff.mp ran
    split at taken
    · exact ih (.next reached ‹_› taken) ran
    · cases taken

theorem exists_of_exec {choices : List Choice} {test : State → Bool}
    (ran : (Runs.exec step allowed start choices).any test = true) :
    ∃ s, Under step allowed start s ∧ test s = true := by
  obtain ⟨s, reaches, holds⟩ := (Option.any_eq_true _ _).mp ran
  exact ⟨s, .exec .start reaches, holds⟩

end Under

end Runs
