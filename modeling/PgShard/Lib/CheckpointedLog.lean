import Mathlib

/-! A log whose entries carry strictly increasing positions, and the part of
it that a checkpoint covers. -/

namespace CheckpointedLog

variable {Entry : Type*} {pos : Entry → Nat} {log : List Entry}

def upTo (pos : Entry → Nat) (checkpoint : Nat) (log : List Entry) : List Entry :=
  log.filter fun e => pos e ≤ checkpoint

def Increasing (pos : Entry → Nat) (log : List Entry) : Prop := log.Pairwise fun a b => pos a < pos b

theorem Increasing.pos_lt (increasing : Increasing pos log) {i j : Nat} {a b : Entry} (atI : log[i]? = some a)
    (atJ : log[j]? = some b) : i < j ↔ pos a < pos b := by
  obtain ⟨boundI, rfl⟩ := List.getElem?_eq_some_iff.mp atI
  obtain ⟨boundJ, rfl⟩ := List.getElem?_eq_some_iff.mp atJ
  have forward {m n : Nat} (boundM : m < log.length) (boundN : n < log.length) (below : m < n) :
      pos log[m] < pos log[n] := List.pairwise_iff_getElem.mp increasing m n boundM boundN below
  refine ⟨forward boundI boundJ, fun below => ?_⟩
  rcases lt_trichotomy i j with less | same | greater
  · exact less
  · subst same
    exact absurd below (lt_irrefl _)
  · exact absurd below (forward boundJ boundI greater).not_gt

theorem Increasing.pos_le (increasing : Increasing pos log) {i j : Nat} {a b : Entry} (atI : log[i]? = some a)
    (atJ : log[j]? = some b) : i ≤ j ↔ pos a ≤ pos b := by
  rw [← not_lt, increasing.pos_lt atJ atI, not_lt]

theorem Increasing.upTo_eq_take (increasing : Increasing pos log) {k : Nat} {last : Entry}
    (atK : log[k]? = some last) : upTo pos (pos last) log = log.take (k + 1) := by
  have split := List.take_append_drop (k + 1) log
  have before : ∀ e ∈ log.take (k + 1), pos e ≤ pos last := by
    intro e member
    obtain ⟨i, bound, rfl⟩ := List.getElem_of_mem member
    have position : log[i]? = some (log.take (k + 1))[i] := by
      rw [List.getElem_take, List.getElem?_eq_getElem]
    refine (increasing.pos_le position atK).mp ?_
    rw [List.length_take] at bound
    omega
  have after : ∀ e ∈ log.drop (k + 1), ¬ pos e ≤ pos last := by
    intro e member
    obtain ⟨i, bound, rfl⟩ := List.getElem_of_mem member
    have position : log[k + 1 + i]? = some (log.drop (k + 1))[i] := by
      rw [List.getElem_drop, List.getElem?_eq_getElem]
    rw [not_le, ← increasing.pos_lt atK position]
    omega
  unfold upTo
  conv_lhs => rw [← split]
  rw [List.filter_append, List.filter_eq_self.mpr (by simpa using before),
    List.filter_eq_nil_iff.mpr (by simpa using after), List.append_nil]

theorem upTo_zero (positive : ∀ e ∈ log, 0 < pos e) : upTo pos 0 log = [] := by
  refine List.filter_eq_nil_iff.mpr fun e member => ?_
  have := positive e member
  simp
  omega

end CheckpointedLog
