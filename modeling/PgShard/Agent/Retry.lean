import PgShard.Agent.EpochGuard

/-! What the failover commands answer when they are handled one after another. -/

namespace PgShard.Agent

structure Snapshot where
  timeline : Nat
  writeLsn : Nat
  deriving DecidableEq

structure InstanceAnswers where
  promote : Except String Nat
  setFenced : Except String Unit
  rejoin : Except String Bool
  snapshot : Except String Snapshot

inductive CommandRequest
  | promote (targetPrimary : String)
  | fence (fenced : Bool)
  | rejoin (upstream : Option (String × Nat)) (allowRewind : Bool)
  deriving DecidableEq

inductive CommandResponse
  | promote (newTimeline promoteLsn : Nat)
  | fence
  | rejoin (rewound : Bool)
  deriving DecidableEq

inductive CommandError
  | invalidArgument (message : String)
  | failedPrecondition (message : String)
  | internal (message : String)
  deriving DecidableEq

def epochStatus : EpochError → CommandError
  | .zero => .invalidArgument "decision_epoch must be > 0"
  | .stale got applied => .failedPrecondition s!"stale decision epoch {got} < {applied}"
  | .conflict epoch => .failedPrecondition s!"decision epoch {epoch} already applied a different request"

/-- What a call leaves behind: the guard, whether the instance was told to do anything, and the answer. -/
structure Handled where
  applied : Applied
  executed : Bool
  result : Except CommandError CommandResponse

/-- What the handlers share: a fresh epoch runs the command and is recorded once that has succeeded; an identical retry
is answered without running it. -/
def guarded {β : Type} (a : Applied) (epoch : Nat) (key : String) (run : Except String β)
    (fresh : β → Except CommandError CommandResponse) (replay : Except CommandError CommandResponse) : Handled :=
  match a.check epoch key with
  | .error e => ⟨a, false, .error (epochStatus e)⟩
  | .ok .apply =>
    match run with
    | .error e => ⟨a, true, .error (.internal e)⟩
    | .ok b => ⟨a.commit epoch key, true, fresh b⟩
  | .ok .replay => ⟨a, false, replay⟩

def promoted (i : InstanceAnswers) (timeline : Snapshot → Nat) : Except CommandError CommandResponse :=
  (i.snapshot.mapError .internal).map fun s => .promote (timeline s) s.writeLsn

def promote (pod : String) (a : Applied) (epoch : Nat) (target : String) (i : InstanceAnswers) : Handled :=
  if target ≠ pod then
    ⟨a, false, .error (.failedPrecondition s!"promote targets {target}, but this agent serves {pod}")⟩
  else guarded a epoch (Command.promote target).key i.promote (fun timeline => promoted i fun _ => timeline)
    (promoted i Snapshot.timeline)

def fence (a : Applied) (epoch : Nat) (fenced : Bool) (i : InstanceAnswers) : Handled :=
  guarded a epoch (Command.fence fenced).key i.setFenced (fun _ => .ok .fence) (.ok .fence)

def rejoinAsStandby (a : Applied) (epoch : Nat) (upstream : Option (String × Nat)) (allowRewind : Bool)
    (i : InstanceAnswers) : Handled :=
  match upstream with
  | none => ⟨a, false, .error (.invalidArgument "upstream is required")⟩
  | some (host, port) => guarded a epoch (Command.rejoin host port allowRewind).key i.rejoin
      (fun rewound => .ok (.rejoin rewound)) (.ok (.rejoin allowRewind))

structure Call where
  epoch : Nat
  request : CommandRequest
  answers : InstanceAnswers

def handle (pod : String) (a : Applied) (c : Call) : Handled :=
  match c.request with
  | .promote target => promote pod a c.epoch target c.answers
  | .fence fenced => fence a c.epoch fenced c.answers
  | .rejoin upstream allowRewind => rejoinAsStandby a c.epoch upstream allowRewind c.answers

def guardAfter (pod : String) (a : Applied) (calls : List Call) : Applied :=
  calls.foldl (fun a c => (handle pod a c).applied) a

/-! ## What the guard remembers -/

section Guard

variable {key : String} {a : Applied} {epoch : Nat} {β : Type} {run : Except String β}
  {fresh : β → Except CommandError CommandResponse} {replay : Except CommandError CommandResponse} {r : CommandResponse}

theorem Applied.check_replay (replays : a.check epoch key = .ok .replay) : a = ⟨epoch, key, true⟩ := by
  unfold Applied.check at replays
  split_ifs at replays with zero stale same other
  · obtain ⟨seen, rfl⟩ : a.seen = true ∧ epoch = a.epoch := by simpa using same
    rw [← not_not.mp other, ← seen]
  · cases replays

theorem Applied.check_nonzero {outcome : Outcome} (checked : a.check epoch key = .ok outcome) : epoch ≠ 0 := by
  rintro rfl
  cases checked

theorem guarded_ok (succeeded : (guarded a epoch key run fresh replay).result = .ok r) :
    (guarded a epoch key run fresh replay).applied = ⟨epoch, key, true⟩ ∧ epoch ≠ 0 ∧
      (replay = .ok r ∨ ∃ b, run = .ok b ∧ fresh b = .ok r) := by
  unfold guarded at succeeded ⊢
  split at succeeded
  · cases succeeded
  · rename_i applies
    split at succeeded
    · cases succeeded
    · exact ⟨(Applied.check_apply applies).commit, Applied.check_nonzero applies, .inr ⟨_, rfl, succeeded⟩⟩
  · rename_i replays
    exact ⟨Applied.check_replay replays, Applied.check_nonzero replays, .inl succeeded⟩

theorem guarded_advances : (guarded a epoch key run fresh replay).applied = a ∨
    (guarded a epoch key run fresh replay).applied = ⟨epoch, key, true⟩ ∧ a.Below epoch := by
  unfold guarded
  split
  · exact .inl rfl
  · rename_i applies
    split
    · exact .inl rfl
    · exact .inr ⟨(Applied.check_apply applies).commit, Applied.check_apply applies⟩
  · exact .inl rfl

theorem guarded_recorded (nonzero : epoch ≠ 0) :
    guarded ⟨epoch, key, true⟩ epoch key run fresh replay = ⟨⟨epoch, key, true⟩, false, replay⟩ := by
  have check : Applied.check ⟨epoch, key, true⟩ epoch key = .ok .replay := by simp [Applied.check, nonzero]
  simp only [guarded, check]

end Guard

/-! ## Retries -/

variable {pod key : String} {a : Applied} {epoch : Nat} {c first retry : Call} {history between : List Call}
  {r later : CommandResponse}

theorem handle_advances : (handle pod a c).applied = a ∨
    ∃ key, (handle pod a c).applied = ⟨c.epoch, key, true⟩ ∧ a.Below c.epoch := by
  unfold handle promote fence rejoinAsStandby
  split
  · split
    · exact .inl rfl
    · exact guarded_advances.imp_right fun moved => ⟨_, moved⟩
  · exact guarded_advances.imp_right fun moved => ⟨_, moved⟩
  · split
    · exact .inl rfl
    · exact guarded_advances.imp_right fun moved => ⟨_, moved⟩

theorem guardAfter_recorded (unpassed : (guardAfter pod ⟨epoch, key, true⟩ between).epoch ≤ epoch) :
    guardAfter pod ⟨epoch, key, true⟩ between = ⟨epoch, key, true⟩ := by
  have kept : ∀ calls : List Call, guardAfter pod ⟨epoch, key, true⟩ calls = ⟨epoch, key, true⟩ ∨
      (guardAfter pod ⟨epoch, key, true⟩ calls).seen = true ∧ epoch < (guardAfter pod ⟨epoch, key, true⟩ calls).epoch := by
    intro calls
    induction calls using List.reverseRecOn with
    | nil => exact .inl rfl
    | append_singleton calls c ih =>
      rw [guardAfter, List.foldl_append, List.foldl_cons, List.foldl_nil, ← guardAfter]
      rcases @handle_advances pod (guardAfter pod ⟨epoch, key, true⟩ calls) c with same | ⟨other, moved, below⟩
      · rwa [same]
      · rw [moved]
        refine .inr ⟨rfl, ?_⟩
        rcases ih with recorded | ⟨seen, passed⟩
        · rw [recorded] at below
          exact below rfl
        · exact passed.trans (below seen)
  exact (kept between).resolve_right fun passed => absurd passed.2 (not_lt.mpr unpassed)

/-- After a success the same request is answered without being executed. -/
theorem guarded_retry {β : Type} {run : Except String β} {fresh : β → Except CommandError CommandResponse}
    {replay : Except CommandError CommandResponse}
    (succeeded : (guarded a epoch key run fresh replay).result = .ok r)
    (unpassed : (guardAfter pod (guarded a epoch key run fresh replay).applied between).epoch ≤ epoch) :
    (∀ (run' : Except String β) fresh' replay', guarded (guardAfter pod (guarded a epoch key run fresh replay).applied
        between) epoch key run' fresh' replay' = ⟨⟨epoch, key, true⟩, false, replay'⟩) ∧
      (replay = .ok r ∨ ∃ b, run = .ok b ∧ fresh b = .ok r) := by
  obtain ⟨recorded, nonzero, reported⟩ := guarded_ok succeeded
  rw [recorded] at unpassed ⊢
  rw [guardAfter_recorded unpassed]
  exact ⟨fun _ _ _ => guarded_recorded nonzero, reported⟩

theorem promoted_ok {i : InstanceAnswers} {timeline : Snapshot → Nat} (reported : promoted i timeline = .ok r) :
    ∃ s, i.snapshot = .ok s ∧ r = .promote (timeline s) s.writeLsn := by
  unfold promoted at reported
  cases seen : i.snapshot with
  | error e =>
    rw [seen] at reported
    cases reported
  | ok s =>
    rw [seen] at reported
    cases reported
    exact ⟨s, rfl, rfl⟩

/-- The instance answers the retry of a promotion from the state that the promotion was answered from, and has rewound
exactly if that was allowed. -/
def Reproduced (first retry : Call) : Prop :=
  match first.request with
  | .promote _ => retry.answers.snapshot = first.answers.snapshot ∧
      ∀ timeline s, first.answers.promote = .ok timeline → first.answers.snapshot = .ok s → timeline = s.timeline
  | .fence _ => True
  | .rejoin _ allowRewind => ∀ rewound, first.answers.rejoin = .ok rewound → rewound = allowRewind

/-- A retry of a call that has succeeded, with no higher epoch recorded since, executes nothing and is answered as the
call was, provided that the instance still says what the answer said. -/
theorem retry_replays (succeeded : (handle pod (guardAfter pod {} history) first).result = .ok r)
    (unpassed : (guardAfter pod (handle pod (guardAfter pod {} history) first).applied between).epoch ≤ first.epoch)
    (sameEpoch : retry.epoch = first.epoch) (sameRequest : retry.request = first.request)
    (reproduced : Reproduced first retry)
    (answered : (handle pod (guardAfter pod (handle pod (guardAfter pod {} history) first).applied between) retry).result =
      .ok later) :
    later = r ∧
      (handle pod (guardAfter pod (handle pod (guardAfter pod {} history) first).applied between) retry).executed = false := by
  obtain ⟨epoch, request, answers⟩ := first
  obtain ⟨epoch', request', answers'⟩ := retry
  cases sameEpoch
  cases sameRequest
  cases request with
  | promote target =>
    by_cases own : target = pod
    · simp only [handle, promote, own, ne_eq, not_true_eq_false, if_false] at succeeded unpassed answered ⊢
      obtain ⟨replays, reported⟩ := guarded_retry succeeded unpassed
      rw [replays] at answered ⊢
      obtain ⟨state, timeline⟩ := reproduced
      obtain ⟨s, seen, rfl⟩ := promoted_ok answered
      refine ⟨?_, rfl⟩
      rcases reported with replayed | ⟨t, ran, fresh⟩
      · obtain ⟨s', seen', rfl⟩ := promoted_ok replayed
        cases seen.symm.trans (state.trans seen')
        rfl
      · obtain ⟨s', seen', rfl⟩ := promoted_ok fresh
        cases seen.symm.trans (state.trans seen')
        rw [timeline t s ran seen']
    · simp [handle, promote, own] at succeeded
  | fence fenced =>
    simp only [handle, fence] at succeeded unpassed answered ⊢
    obtain ⟨replays, reported⟩ := guarded_retry succeeded unpassed
    rw [replays] at answered ⊢
    cases answered
    refine ⟨?_, rfl⟩
    rcases reported with replayed | ⟨_, -, fresh⟩
    · exact Except.ok.inj replayed
    · exact Except.ok.inj fresh
  | rejoin upstream allowRewind =>
    cases upstream with
    | none => cases succeeded
    | some target =>
      simp only [handle, rejoinAsStandby] at succeeded unpassed answered ⊢
      obtain ⟨replays, reported⟩ := guarded_retry succeeded unpassed
      rw [replays] at answered ⊢
      cases answered
      refine ⟨?_, rfl⟩
      rcases reported with replayed | ⟨rewound, ran, fresh⟩
      · exact Except.ok.inj replayed
      · rw [← Except.ok.inj fresh, reproduced rewound ran]

def standing (timeline writeLsn : Nat) : InstanceAnswers :=
  ⟨.ok timeline, .ok (), .ok false, .ok ⟨timeline, writeLsn⟩⟩

/-- Between the promotion and its retry an older promotion is refused. -/
theorem retry_replays_promotion :
    let guard := guardAfter "pg-1" (handle "pg-1" {} ⟨7, .promote "pg-1", standing 2 50⟩).applied
      [⟨6, .promote "pg-1", standing 2 60⟩]
    (handle "pg-1" guard ⟨7, .promote "pg-1", standing 2 50⟩).result = .ok (.promote 2 50) ∧
      (handle "pg-1" guard ⟨7, .promote "pg-1", standing 2 50⟩).executed = false := by
  have answered : (handle "pg-1" (guardAfter "pg-1" (handle "pg-1" {} ⟨7, .promote "pg-1", standing 2 50⟩).applied
      [⟨6, .promote "pg-1", standing 2 60⟩]) ⟨7, .promote "pg-1", standing 2 50⟩).result = .ok (.promote 2 50) := by
    decide +kernel
  have succeeded : (handle "pg-1" (guardAfter "pg-1" {} []) ⟨7, .promote "pg-1", standing 2 50⟩).result =
      .ok (.promote 2 50) := by decide +kernel
  have reproduced : Reproduced ⟨7, .promote "pg-1", standing 2 50⟩ ⟨7, .promote "pg-1", standing 2 50⟩ := by
    refine ⟨rfl, ?_⟩
    rintro timeline s ⟨⟩ ⟨⟩
    rfl
  exact ⟨answered, (retry_replays succeeded (by decide +kernel) rfl rfl reproduced answered).2⟩

/-- The primary has written since its promotion, and the rejoin that was allowed to rewind did not have to: the retries
report another position and a rewind. -/
theorem retry_answers_anew :
    (handle "pg-1" {} ⟨7, .promote "pg-1", standing 2 50⟩).result = .ok (.promote 2 50) ∧
      (handle "pg-1" (handle "pg-1" {} ⟨7, .promote "pg-1", standing 2 50⟩).applied
        ⟨7, .promote "pg-1", standing 2 60⟩).result = .ok (.promote 2 60) ∧
      (handle "pg-1" {} ⟨7, .rejoin (some ("pg-0", 5432)) true, standing 2 50⟩).result = .ok (.rejoin false) ∧
      (handle "pg-1" (handle "pg-1" {} ⟨7, .rejoin (some ("pg-0", 5432)) true, standing 2 50⟩).applied
        ⟨7, .rejoin (some ("pg-0", 5432)) true, standing 2 50⟩).result = .ok (.rejoin true) := by
  decide +kernel

end PgShard.Agent
