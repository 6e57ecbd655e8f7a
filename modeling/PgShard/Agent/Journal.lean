import PgShard.Lib.Runs
import PgShard.Lib.Quote

/-! The journal records of an agent: one slot for each id, and the detached tasks that
emit under its lock. -/

namespace PgShard.Agent

/-- What a slot remembers of an emit; without a position its outcome is unknown. -/
structure JournalRecord where
  database : String
  payload : List UInt8
  lsn : Option Nat
  deriving DecidableEq

structure JournalEvent where
  sourceShard : String
  encoded : List UInt8
  deriving DecidableEq

structure EmitJournalRequest where
  targetPodUid : String := ""
  database : String
  id : String
  journal : Option JournalEvent
  deriving DecidableEq

inductive JournalError
  | aborted (message : String)
  | invalidArgument (message : String)
  | failedPrecondition (message : String)
  | internal (message : String)
  deriving DecidableEq

def checkIdent (what value : String) (required : Bool) : Except JournalError Unit :=
  if value = "" then if required then .error (.invalidArgument (what ++ " is required")) else .ok ()
  else if 63 < value.utf8ByteSize then
    .error (.invalidArgument (what ++ " exceeds PostgreSQL's 63-byte identifier limit"))
  else .ok ()

structure JournalTask where
  id : String
  database : String
  payload : List UInt8
  /-- The caller has not been cancelled. -/
  awaited : Bool := true
  deriving DecidableEq

def admitJournal (podUid : String) (req : EmitJournalRequest) : Except JournalError JournalTask := do
  if req.targetPodUid ≠ "" ∧ podUid ≠ "" ∧ req.targetPodUid ≠ podUid then
    .error (.aborted ("request targets pod uid " ++ req.targetPodUid ++ ", but this agent serves " ++ podUid))
  checkIdent "database" req.database true
  if req.id = "" then .error (.invalidArgument "id is required")
  match req.journal with
  | none => .error (.invalidArgument "journal event is required")
  | some journal =>
    if journal.sourceShard = "" then .error (.invalidArgument "journal source_shard is required")
    .ok { id := req.id, database := req.database, payload := journal.encoded }

/-- A task that holds a slot's lock while it emits, and the position of its record once
that is durable. -/
structure Emission where
  task : JournalTask
  written : Option Nat := none
  deriving DecidableEq

/-- The slot of one id, with the records that are durable for it, the emits that were
given up although their commit may still land, and what its callers were answered. -/
structure JournalSlot where
  recorded : Option JournalRecord := none
  emitting : Option Emission := none
  outstanding : Nat := 0
  records : List Nat := []
  answers : List (Except JournalError Nat) := []

def JournalRecord.answer (rec : JournalRecord) (task : JournalTask) : Except JournalError Nat :=
  if rec.database ≠ task.database ∨ rec.payload ≠ task.payload then
    .error (.failedPrecondition ("journal id " ++ Quote.debug task.id ++
      " was already emitted with a different database or payload"))
  else
    match rec.lsn with
    | some lsn => .ok lsn
    | none => .error (.failedPrecondition ("journal id " ++ Quote.debug task.id ++
        " has an UNKNOWN outcome (a previous emit timed out); it cannot be retried"))

namespace JournalSlot

def answer (s : JournalSlot) (task : JournalTask) (result : Except JournalError Nat) : JournalSlot :=
  if task.awaited then { s with answers := s.answers ++ [result] } else s

def lock (s : JournalSlot) (task : JournalTask) : Option JournalSlot :=
  match s.emitting, s.recorded with
  | some _, _ => none
  | none, some rec => some (s.answer task (rec.answer task))
  | none, none => some { s with emitting := some { task } }

def write (s : JournalSlot) (lsn : Nat) : Option JournalSlot :=
  match s.emitting with
  | some ⟨task, none⟩ => some { s with emitting := some ⟨task, some lsn⟩, records := s.records ++ [lsn] }
  | _ => none

def land (s : JournalSlot) (lsn : Nat) : Option JournalSlot :=
  match s.outstanding with
  | 0 => none
  | n + 1 => some { s with outstanding := n, records := s.records ++ [lsn] }

def succeed (s : JournalSlot) : Option JournalSlot :=
  match s.emitting with
  | some ⟨task, some lsn⟩ =>
    some ({ s with emitting := none, recorded := some ⟨task.database, task.payload, some lsn⟩ }.answer task (.ok lsn))
  | _ => none

/-- How many commits an emit that is given up leaves behind. -/
def Emission.leaves (e : Emission) (late : Bool) : Nat :=
  if e.written.isNone && late then 1 else 0

/-- The instance reports an error; with `late`, the record may become durable yet. -/
def fail (s : JournalSlot) (late : Bool) (message : String) : Option JournalSlot :=
  s.emitting.map fun e =>
    { s with emitting := none, outstanding := s.outstanding + Emission.leaves e late }.answer e.task
      (.error (.internal message))

/-- The emit times out, and the id is poisoned. -/
def timeout (s : JournalSlot) (late : Bool) : Option JournalSlot :=
  s.emitting.map fun e =>
    { s with
      emitting := none
      outstanding := s.outstanding + Emission.leaves e late
      recorded := some ⟨e.task.database, e.task.payload, none⟩ }.answer e.task (.error (.internal
        ("journal emit " ++ Quote.debug e.task.id ++ " timed out; outcome unknown and the id is now poisoned")))

end JournalSlot

/-- An agent: the tasks that wait for their slot's lock, and the slots. -/
structure JournalAgent where
  podUid : String
  queued : Nat → Option JournalTask := fun _ => none
  slot : String → JournalSlot := fun _ => {}

inductive JournalChoice
  | call (w : Nat) (request : EmitJournalRequest)
  /-- The caller is cancelled; its task is detached and goes on. -/
  | cancel (w : Nat)
  | cancelEmitting (id : String)
  | lock (w : Nat)
  | write (id : String) (lsn : Nat)
  | land (id : String) (lsn : Nat)
  | succeed (id : String)
  | fail (id : String) (late : Bool) (message : String)
  | timeout (id : String) (late : Bool)
  deriving DecidableEq

namespace JournalAgent

def setSlot (s : JournalAgent) (id : String) (slot : JournalSlot) : JournalAgent :=
  { s with slot := Function.update s.slot id slot }

def step (s : JournalAgent) : JournalChoice → Option JournalAgent
  | .call w request =>
    match s.queued w, admitJournal s.podUid request with
    | none, .ok task => some { s with queued := Function.update s.queued w (some task) }
    | none, .error _ => some s
    | some _, _ => none
  | .cancel w => (s.queued w).map fun task =>
      { s with queued := Function.update s.queued w (some { task with awaited := false }) }
  | .cancelEmitting id => (s.slot id).emitting.map fun e =>
      s.setSlot id { s.slot id with emitting := some { e with task.awaited := false } }
  | .lock w =>
    match s.queued w with
    | some task => ((s.slot task.id).lock task).map fun slot =>
        { s with queued := Function.update s.queued w none }.setSlot task.id slot
    | none => none
  | .write id lsn => ((s.slot id).write lsn).map (s.setSlot id)
  | .land id lsn => ((s.slot id).land lsn).map (s.setSlot id)
  | .succeed id => (s.slot id).succeed.map (s.setSlot id)
  | .fail id late message => ((s.slot id).fail late message).map (s.setSlot id)
  | .timeout id late => ((s.slot id).timeout late).map (s.setSlot id)

/-- An error is reported only of an emit whose record is not durable and never will be. -/
def failsClean (s : JournalAgent) : JournalChoice → Bool
  | .fail id late _ => (s.slot id).emitting.all fun e => e.written.isNone && !late
  | _ => true

end JournalAgent

/-! ## The slots of an agent whose errors are clean -/

/-- What a slot can be: empty, emitting, recorded with the position of its only record,
or poisoned with at most one record, durable or outstanding. -/
inductive JournalSlot.Sound : JournalSlot → Prop
  | empty {answers : List (Except JournalError Nat)} : (∀ lsn, .ok lsn ∉ answers) → Sound ⟨none, none, 0, [], answers⟩
  | emitting {answers : List (Except JournalError Nat)} {e : Emission} : (∀ lsn, .ok lsn ∉ answers) →
      Sound ⟨none, some e, 0, e.written.toList, answers⟩
  | recorded {answers : List (Except JournalError Nat)} {rec : JournalRecord} {lsn : Nat} : rec.lsn = some lsn →
      (∀ other, .ok other ∈ answers → other = lsn) → Sound ⟨some rec, none, 0, [lsn], answers⟩
  | poisoned {answers : List (Except JournalError Nat)} {rec : JournalRecord} {outstanding : Nat} {records : List Nat} :
      rec.lsn = none → outstanding + records.length ≤ 1 → (∀ lsn, .ok lsn ∉ answers) →
      Sound ⟨some rec, none, outstanding, records, answers⟩

namespace JournalSlot

variable {s t : JournalSlot} {task : JournalTask} {lsn : Nat} {late : Bool} {message : String}

theorem answer_eq {result : Except JournalError Nat} : ∃ more, s.answer task result = { s with answers := s.answers ++ more } ∧
    ∀ r ∈ more, r = result := by
  unfold answer
  split
  · exact ⟨[result], rfl, by simp⟩
  · exact ⟨[], by simp, by simp⟩

namespace Sound

theorem lock (sound : s.Sound) (taken : s.lock task = some t) : t.Sound := by
  cases sound with
  | empty none =>
    cases taken
    exact .emitting none
  | emitting none => cases taken
  | @recorded answers rec own at_ only =>
    obtain ⟨more, same, all⟩ := @answer_eq ⟨some rec, none, 0, [own], answers⟩ task (rec.answer task)
    simp only [JournalSlot.lock, same, Option.some.injEq] at taken
    subst taken
    refine .recorded at_ fun other member => ?_
    rcases List.mem_append.mp member with old | new
    · exact only other old
    · have answered := all _ new
      simp only [JournalRecord.answer, at_] at answered
      split at answered
      · cases answered
      · exact Except.ok.inj answered
  | @poisoned answers rec outstanding records at_ bound none =>
    obtain ⟨more, same, all⟩ := @answer_eq ⟨some rec, Option.none, outstanding, records, answers⟩ task (rec.answer task)
    simp only [JournalSlot.lock, same, Option.some.injEq] at taken
    subst taken
    refine .poisoned at_ bound fun lsn member => ?_
    rcases List.mem_append.mp member with old | new
    · exact none lsn old
    · have answered := all _ new
      simp only [JournalRecord.answer, at_] at answered
      split at answered <;> cases answered

theorem write (sound : s.Sound) (taken : s.write lsn = some t) : t.Sound := by
  cases sound with
  | @emitting answers e none =>
    obtain ⟨task, written⟩ := e
    cases written with
    | none =>
      cases taken
      exact .emitting none
    | some _ => cases taken
  | empty | recorded | poisoned => cases taken

theorem land (sound : s.Sound) (taken : s.land lsn = some t) : t.Sound := by
  cases sound with
  | @poisoned answers rec outstanding records at_ bound none =>
    cases outstanding with
    | zero => cases taken
    | succ n =>
      cases taken
      refine .poisoned at_ ?_ none
      simp only [List.length_append, List.length_singleton]
      omega
  | empty | emitting | recorded => cases taken

theorem succeed (sound : s.Sound) (taken : s.succeed = some t) : t.Sound := by
  cases sound with
  | @emitting answers e none =>
    obtain ⟨task, written⟩ := e
    cases written with
    | none => cases taken
    | some lsn =>
      obtain ⟨more, same, all⟩ := @answer_eq
        ⟨some ⟨task.database, task.payload, some lsn⟩, Option.none, 0, [lsn], answers⟩ task (.ok lsn)
      have recorded : t = ⟨some ⟨task.database, task.payload, some lsn⟩, Option.none, 0, [lsn], answers ++ more⟩ :=
        (Option.some.inj taken).symm.trans same
      subst recorded
      refine .recorded rfl fun other member => ?_
      rcases List.mem_append.mp member with old | new
      · exact absurd old (none other)
      · exact Except.ok.inj (all _ new)
  | empty | recorded | poisoned => cases taken

theorem no_ok {answers more : List (Except JournalError Nat)} {error : JournalError} (none : ∀ lsn, .ok lsn ∉ answers)
    (all : ∀ r ∈ more, r = .error error) (lsn : Nat) : .ok lsn ∉ answers ++ more := by
  intro member
  rcases List.mem_append.mp member with old | new
  · exact none lsn old
  · cases all _ new

theorem fail (sound : s.Sound) (clean : (s.emitting.all fun e => e.written.isNone && !late) = true)
    (taken : s.fail late message = some t) : t.Sound := by
  cases sound with
  | @emitting answers e none =>
    obtain ⟨task, written⟩ := e
    simp only [Option.all_some, Bool.and_eq_true, Option.isNone_iff_eq_none, Bool.not_eq_true'] at clean
    obtain ⟨rfl, rfl⟩ := clean
    obtain ⟨more, same, all⟩ := @answer_eq ⟨Option.none, Option.none, 0, [], answers⟩ task (.error (.internal message))
    have emptied : t = ⟨Option.none, Option.none, 0, [], answers ++ more⟩ := (Option.some.inj taken).symm.trans same
    subst emptied
    exact .empty (no_ok none all)
  | empty | recorded | poisoned => cases taken

theorem timeout (sound : s.Sound) (taken : s.timeout late = some t) : t.Sound := by
  cases sound with
  | @emitting answers e none =>
    obtain ⟨task, written⟩ := e
    obtain ⟨more, same, all⟩ := @answer_eq ⟨some ⟨task.database, task.payload, Option.none⟩, Option.none,
      0 + Emission.leaves ⟨task, written⟩ late, written.toList, answers⟩ task (.error (.internal
        ("journal emit " ++ Quote.debug task.id ++ " timed out; outcome unknown and the id is now poisoned")))
    have poisons := (Option.some.inj taken).symm.trans same
    subst poisons
    refine .poisoned rfl ?_ (no_ok none all)
    cases written <;> cases late <;> simp [Emission.leaves]
  | empty | recorded | poisoned => cases taken

end Sound

end JournalSlot

namespace JournalAgent

variable {s t : JournalAgent} {c : JournalChoice}

def Sound (s : JournalAgent) : Prop :=
  ∀ id, (s.slot id).Sound

theorem Sound.setSlot (sound : s.Sound) {id : String} {slot : JournalSlot} (own : slot.Sound) : (s.setSlot id slot).Sound := by
  intro other
  by_cases same : other = id
  · subst same
    simpa [JournalAgent.setSlot] using own
  · simpa [JournalAgent.setSlot, Function.update_of_ne same] using sound other

theorem Sound.next (sound : s.Sound) (allowed : s.failsClean c = true) (taken : s.step c = some t) : t.Sound := by
  cases c with
  | call w request =>
    simp only [JournalAgent.step] at taken
    split at taken <;> cases taken
    · exact sound
    · exact sound
  | cancel w =>
    obtain ⟨task, -, rfl⟩ := Option.map_eq_some_iff.mp taken
    exact sound
  | cancelEmitting id =>
    obtain ⟨e, emits, rfl⟩ := Option.map_eq_some_iff.mp taken
    refine sound.setSlot ?_
    have own := sound id
    generalize s.slot id = slot at emits own
    cases own with
    | emitting none =>
      cases emits
      exact .emitting none
    | empty | recorded | poisoned => cases emits
  | lock w =>
    simp only [JournalAgent.step] at taken
    split at taken
    · obtain ⟨slot, locked, rfl⟩ := Option.map_eq_some_iff.mp taken
      exact Sound.setSlot (s := { s with queued := _ }) sound ((sound _).lock locked)
    · cases taken
  | write id lsn =>
    obtain ⟨slot, written, rfl⟩ := Option.map_eq_some_iff.mp taken
    exact sound.setSlot ((sound id).write written)
  | land id lsn =>
    obtain ⟨slot, landed, rfl⟩ := Option.map_eq_some_iff.mp taken
    exact sound.setSlot ((sound id).land landed)
  | succeed id =>
    obtain ⟨slot, succeeded, rfl⟩ := Option.map_eq_some_iff.mp taken
    exact sound.setSlot ((sound id).succeed succeeded)
  | fail id late message =>
    obtain ⟨slot, failed, rfl⟩ := Option.map_eq_some_iff.mp taken
    exact sound.setSlot ((sound id).fail allowed failed)
  | timeout id late =>
    obtain ⟨slot, timed, rfl⟩ := Option.map_eq_some_iff.mp taken
    exact sound.setSlot ((sound id).timeout timed)

end JournalAgent

/-- Where errors are clean, at most one journal record is written for an id, and every
successful call for it returns that record's position. -/
theorem journal_once {podUid : String} {s : JournalAgent}
    (reached : Runs.Under JournalAgent.step JournalAgent.failsClean { podUid } s) (id : String) :
    (s.slot id).records.length ≤ 1 ∧ ∀ lsn, .ok lsn ∈ (s.slot id).answers → (s.slot id).records = [lsn] := by
  have sound : s.Sound := reached.invariant (fun _ => .empty (by simp)) fun _ _ _ sound allowed taken =>
    sound.next allowed taken
  have own := sound id
  generalize s.slot id = slot at own
  cases own with
  | empty none => exact ⟨by simp, fun lsn member => absurd member (none lsn)⟩
  | @emitting answers e none => exact ⟨by cases e.written <;> simp, fun lsn member => absurd member (none lsn)⟩
  | recorded at_ only => exact ⟨by simp, fun lsn member => by rw [only lsn member]⟩
  | poisoned at_ bound none => exact ⟨(Nat.le_add_left _ _).trans bound, fun lsn member => absurd member (none lsn)⟩

def cutoverEmit : EmitJournalRequest :=
  { database := "orders", id := "split", journal := some ⟨"main", [10, 4, 109, 97, 105, 110]⟩ }

theorem journal_once_retried : ∃ s, Runs.Under JournalAgent.step JournalAgent.failsClean { podUid := "" } s ∧
    .ok 9 ∈ (s.slot "split").answers ∧ (s.slot "split").records = [9] := by
  have ran : (Runs.exec JournalAgent.step JournalAgent.failsClean { podUid := "" }
      [.call 0 cutoverEmit, .call 1 cutoverEmit, .lock 0, .fail "split" false "refused", .lock 1, .cancelEmitting "split",
        .write "split" 9, .succeed "split", .call 2 cutoverEmit, .lock 2]).any
      (fun s => (s.slot "split").answers.any fun r => r.toOption == some 9) = true := by decide +kernel
  obtain ⟨s, reached, holds⟩ := Runs.Under.exists_of_exec ran
  obtain ⟨r, member, isOk⟩ := List.any_eq_true.mp holds
  have answered : .ok 9 ∈ (s.slot "split").answers := by
    cases r with
    | error e => cases isOk
    | ok lsn =>
      simp only [Except.toOption, beq_iff_eq, Option.some.injEq] at isOk
      exact isOk ▸ member
  exact ⟨s, reached, answered, (journal_once reached "split").2 9 answered⟩

/-- The commit of an emit succeeds and its acknowledgement is lost: the slot stays empty,
and the retry writes a second record. -/
theorem lost_commit_repeats : ∃ s, Runs.Under JournalAgent.step (fun _ _ => true) { podUid := "" } s ∧
    (s.slot "split").records = [5, 9] := by
  have ran : (Runs.exec JournalAgent.step (fun _ _ => true) { podUid := "" }
      [.call 0 cutoverEmit, .lock 0, .write "split" 5, .fail "split" false "connection closed", .call 1 cutoverEmit, .lock 1,
        .write "split" 9, .succeed "split"]).any (fun s => (s.slot "split").records == [5, 9]) = true := by
    decide +kernel
  obtain ⟨s, reached, holds⟩ := Runs.Under.exists_of_exec ran
  exact ⟨s, reached, beq_iff_eq.mp holds⟩

end PgShard.Agent
