import PgShard.Seq.Unique

/-! No thread waits for a reservation that nobody makes. -/

namespace PgShard.Seq

variable {s s' : State} {sequence : String} {c : Client} {t : Thread} {entry : SeqState} {choice : Choice}

/-- A thread waits only while its sequence is marked, and a mark stands for a claim. -/
structure Attended (s : State) : Prop where
  marked : ∀ {c sequence}, s.threads c = .waiting sequence → s.busy c.router sequence = true
  claimed : ∀ {router sequence}, s.busy router sequence = true → ∃ c, c.router = router ∧ s.claim c = some sequence

namespace Attended

variable (attended : Attended s)
include attended

/-- A thread that keeps its claim, or its lack of one, and waits at most for what is marked. -/
theorem moves (threads : s'.threads = Function.update s.threads c t) (marks : s'.busy = s.busy)
    (same : t.claim = s.claim c) (waits : ∀ name, t = .waiting name → s.busy c.router name = true) : Attended s' := by
  obtain ⟨marked, claimed⟩ := attended
  constructor <;> simp only [State.claim, threads, marks, Function.update_apply] at * <;> grind

theorem claims (free : s.claim c = none) (busy : entry.reserving = true) :
    Attended ((s.setEntry c.router sequence entry).setThread c (.reserving sequence)) := by
  obtain ⟨marked, claimed⟩ := attended
  constructor <;> simp only [State.busy, State.claim, State.setThread, State.setEntry, Function.update_apply] at * <;>
    grind [Thread.claim]

/-- Giving the claim up wakes every thread of the router, whatever it waits for. -/
theorem settles (held : s.claim c = some sequence) (done : entry.reserving = false) :
    Attended (((s.setEntry c.router sequence entry).notifyAll c.router).setThread c .idle) := by
  obtain ⟨marked, claimed⟩ := attended
  constructor <;> simp only [State.busy, State.claim, State.setThread, State.setEntry, State.notifyAll,
    Function.update_apply] at * <;> grind [Thread.claim]

theorem enters (was : s.threads c = .entering sequence) (taken : Seq.step s (.lock c) = some s') : Attended s' := by
  have free : Thread.claim .idle = s.claim c := (congrArg Thread.claim was).symm
  simp only [Seq.step, was] at taken
  cases found : s.caches c.router sequence with
  | none =>
    simp only [found, enter] at taken
    cases taken
    exact attended.claims free.symm rfl
  | some entry =>
    cases took : entry.block.take with
    | some result =>
      simp only [found, enter, took] at taken
      cases taken
      exact attended.moves rfl (State.busy_kept found rfl) free (by simp)
    | none =>
      by_cases busy : entry.reserving = true
      · simp only [found, enter, took, if_pos busy] at taken
        cases taken
        exact attended.moves rfl (State.busy_kept found rfl) free (by simp [State.busy, found, busy])
      · simp only [found, enter, took, if_neg busy] at taken
        cases taken
        exact attended.claims free.symm rfl

theorem step (taken : Seq.step s choice = some s') : Attended s' := by
  have at_ : ∀ {c t}, s.threads c = t → t.claim = s.claim c := fun was => congrArg Thread.claim was.symm
  cases choice with
  | call c | wake c =>
    simp only [Seq.step] at taken
    split at taken
    · rename_i was
      cases taken
      exact attended.moves rfl rfl (at_ was :) (by simp)
    · cases taken
  | answer c answer =>
    simp only [Seq.step] at taken
    split at taken
    · rename_i was
      cases answer <;> cases taken <;> exact attended.moves rfl rfl (at_ was :) (by simp)
    · cases taken
  | lock c =>
    cases was : s.threads c with
    | entering sequence => exact attended.enters was taken
    | reserved sequence result =>
      simp only [Seq.step, was] at taken
      obtain ⟨entry, -, rfl⟩ := Option.map_eq_some_iff.mp taken
      have done : (settle sequence entry result).1.reserving = false := by
        unfold settle
        split
        · rfl
        · split
          · rfl
          · split <;> rfl
      have settled := attended.settles (at_ was).symm done
      split <;> exact ⟨settled.marked, settled.claimed⟩
    | unwinding sequence =>
      simp only [Seq.step, was] at taken
      obtain ⟨entry, -, rfl⟩ := Option.map_eq_some_iff.mp taken
      exact attended.settles (at_ was).symm rfl
    | _ => simp [Seq.step, was] at taken

end Attended

theorem attended_of_under (reached : Runs.Under step (fun _ _ => true) {} s) : Attended s := by
  induction reached with
  | start => exact ⟨fun waits => (by cases waits), fun busy => (by cases busy)⟩
  | next _ _ taken attended => exact attended.step taken

/-- Whoever waits does so for one thread of its router, which awaits its block or can go on and wakes it. -/
theorem waiter_attended (reached : Runs.Under step (fun _ _ => true) {} s) (waits : s.threads c = .waiting sequence) :
    ∃ o, o.router = c.router ∧ s.claim o = some sequence ∧
      (∀ other, other.router = c.router → s.claim other = some sequence → other = o) ∧
      (s.threads o = .reserving sequence ∨ ∃ s', step s (.lock o) = some s' ∧ s'.threads c = .entering sequence) := by
  have attended := attended_of_under reached
  have busy := attended.marked waits
  obtain ⟨o, here, holds⟩ := attended.claimed busy
  refine ⟨o, here, holds, fun other there held =>
    (singleFlight_of_under reached).alone (there.trans here.symm) held holds, ?_⟩
  obtain ⟨entry, found, -⟩ := (Option.any_eq_true _ _).mp busy
  rw [← here] at found
  unfold State.claim at holds
  have others : c ≠ o := by
    rintro rfl
    simp [waits, Thread.claim] at holds
  have woken : ∀ entry, (((s.setEntry o.router sequence entry).notifyAll o.router).setThread o .idle).threads c =
      .entering sequence := by
    simp [State.setThread, State.notifyAll, State.setEntry, Function.update_of_ne others, waits, here]
  cases was : s.threads o with
  | reserving name =>
    cases was ▸ holds
    exact .inl rfl
  | reserved name result =>
    cases was ▸ holds
    simp only [step, was, found, Option.map_some]
    refine .inr ⟨_, rfl, ?_⟩
    split <;> exact woken _
  | unwinding name =>
    cases was ▸ holds
    simp only [step, was, found, Option.map_some]
    exact .inr ⟨_, rfl, woken _⟩
  | _ => simp [was, Thread.claim] at holds

def Thread.waitsFor (sequence : String) : Thread → Bool
  | .waiting other => other == sequence
  | _ => false

theorem waiter_attended_racing : ∃ s o, Runs.Under step (fun _ _ => true) {} s ∧ s.threads ⟨0, 1⟩ = .waiting "orders" ∧ o.router = 0 ∧
    s.claim o = some "orders" := by
  have ran : (Runs.exec step (fun _ _ => true) {} (racing.take 5)).any (fun s =>
      (s.threads ⟨0, 1⟩).waitsFor "orders") = true := by decide +kernel
  obtain ⟨s, reached, holds⟩ := Runs.Under.exists_of_exec ran
  have waits : s.threads ⟨0, 1⟩ = .waiting "orders" := by
    cases at_ : s.threads ⟨0, 1⟩ <;> simp_all [Thread.waitsFor]
  obtain ⟨o, here, holds, -⟩ := waiter_attended reached waits
  exact ⟨s, o, reached, waits, here, holds⟩

end PgShard.Seq
