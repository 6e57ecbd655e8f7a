import PgShard.Lib.Runs

/-! The operation log of `ExecSchema`: an id is claimed before its statement runs and released
when the statement returns. -/

namespace PgShard.Agent

open Function (update update_self update_of_ne update_eq_self)

variable {id : String} {n : Nat}

inductive SchemaError
  | emptyId
  | differentSql (id : String)
  | inFlight (id : String)
  deriving DecidableEq

def SchemaError.message : SchemaError → String
  | .emptyId => "operation_id is required"
  | .differentSql id => "operation_id " ++ id ++ " was reused with different sql"
  | .inFlight id => "operation_id " ++ id ++ " is already in flight"

inductive SchemaStatus
  | invalidArgument (message : String)
  | alreadyExists (message : String)
  | internal (message : String)
  deriving DecidableEq

def schemaStatus (e : SchemaError) : SchemaStatus :=
  match e with
  | .emptyId | .differentSql _ => .invalidArgument e.message
  | .inFlight _ => .alreadyExists e.message

inductive OpState
  | inFlight
  | done
  | failed
  deriving DecidableEq

structure SchemaOp where
  sql : String
  state : OpState
  deriving DecidableEq

inductive SchemaClaim
  | execute
  | replay
  deriving DecidableEq

abbrev SchemaLog := String → Option SchemaOp

namespace SchemaLog

/-- Reserve an id for a statement; the log is changed only where the caller is to execute. -/
def claim (ops : SchemaLog) (id sql : String) : Except SchemaError (SchemaClaim × SchemaLog) :=
  if id = "" then .error .emptyId
  else
    match ops id with
    | some op =>
      if op.sql ≠ sql then .error (.differentSql id)
      else
        match op.state with
        | .done => .ok (.replay, ops)
        | .inFlight => .error (.inFlight id)
        | .failed => .ok (.execute, update ops id (some { op with state := .inFlight }))
    | none => .ok (.execute, update ops id (some ⟨sql, .inFlight⟩))

def setState (ops : SchemaLog) (id : String) (state : OpState) : SchemaLog :=
  update ops id ((ops id).map fun op => { op with state })

def markDone (ops : SchemaLog) (id : String) : SchemaLog := ops.setState id .done

def markFailed (ops : SchemaLog) (id : String) : SchemaLog := ops.setState id .failed

theorem claim_cases (ops : SchemaLog) (id sql : String) :
    (∃ e, ops.claim id sql = .error e) ∨ ops.claim id sql = .ok (.replay, ops) ∨
      (ops id = none ∨ ops id = some ⟨sql, .failed⟩) ∧
        ops.claim id sql = .ok (.execute, update ops id (some ⟨sql, .inFlight⟩)) := by
  unfold claim
  split_ifs with empty
  · exact .inl ⟨_, rfl⟩
  · cases found : ops id with
    | none => exact .inr (.inr ⟨.inl rfl, rfl⟩)
    | some op =>
      obtain ⟨bound, state⟩ := op
      by_cases same : bound = sql
      · subst same
        cases state with
        | inFlight => exact .inl ⟨.inFlight id, by simp⟩
        | done => exact .inr (.inl (by simp))
        | failed => exact .inr (.inr ⟨.inr rfl, by simp⟩)
      · exact .inl ⟨.differentSql id, by simp [same]⟩

theorem claim_inFlight {ops : SchemaLog} {sql other : String} (refused : ops.claim id sql = .error (.inFlight other)) :
    ops id = some ⟨sql, .inFlight⟩ := by
  unfold claim at refused
  by_cases empty : id = ""
  · simp [empty] at refused
  · cases found : ops id with
    | none => simp [empty, found] at refused
    | some op =>
      obtain ⟨bound, state⟩ := op
      by_cases same : bound = sql
      · subst same
        cases state <;> simp [empty, found] at refused ⊢
      · simp [empty, found, same] at refused

end SchemaLog

/-- How a call of `exec_sql` stands. Of an abandoned one nothing is known: its handler was
dropped, and the server may still be running the statement. -/
inductive ExecOutcome
  | running
  | succeeded
  | failed
  | abandoned
  deriving DecidableEq

structure Execution where
  sql : String
  outcome : ExecOutcome := .running
  deriving DecidableEq

def Execution.unfinished (e : Execution) : Bool := e.outcome == .running || e.outcome == .abandoned

/-- An agent, with the executions of each id in the order of their start. The handlers of an id
that wait for their statement are its running executions. -/
structure SchemaAgent where
  ops : SchemaLog := fun _ => none
  executions : String → List Execution := fun _ => []
  answers : List (String × Except SchemaStatus Unit) := []

inductive SchemaChoice
  | call (id sql : String)
  /-- The statement of the `n`-th execution of an id returns. -/
  | succeed (id : String) (n : Nat)
  | fail (id : String) (n : Nat) (message : String)
  /-- The client hangs up and the handler is dropped where it awaits the statement. -/
  | drop (id : String) (n : Nat)
  deriving DecidableEq

namespace SchemaAgent

def call (s : SchemaAgent) (id sql : String) : SchemaAgent :=
  match s.ops.claim id sql with
  | .error e => { s with answers := s.answers ++ [(id, .error (schemaStatus e))] }
  | .ok (.replay, ops) => { s with ops, answers := s.answers ++ [(id, .ok ())] }
  | .ok (.execute, ops) =>
    { s with ops, executions := update s.executions id (s.executions id ++ [{ sql }]) }

def close (s : SchemaAgent) (id : String) (n : Nat) (outcome : ExecOutcome) : Option SchemaAgent :=
  match (s.executions id)[n]? with
  | some ⟨sql, .running⟩ =>
    some { s with executions := update s.executions id ((s.executions id).set n ⟨sql, outcome⟩) }
  | _ => none

def step (s : SchemaAgent) : SchemaChoice → Option SchemaAgent
  | .call id sql => some (s.call id sql)
  | .succeed id n => (s.close id n .succeeded).map fun closed =>
      { closed with ops := closed.ops.markDone id, answers := closed.answers ++ [(id, .ok ())] }
  | .fail id n message => (s.close id n .failed).map fun closed =>
      { closed with ops := closed.ops.markFailed id, answers := closed.answers ++ [(id, .error (.internal message))] }
  | .drop id n => s.close id n .abandoned

/-- No handler of the id is dropped. -/
def keepsHandlers (id : String) : SchemaAgent → SchemaChoice → Bool
  | _, .drop other _ => other != id
  | _, _ => true

def Busy (s : SchemaAgent) (id : String) : Prop :=
  ∃ e ∈ s.executions id, e.outcome = .running

end SchemaAgent

/-! ## The executions of one id -/

def ExecOutcome.state : ExecOutcome → OpState
  | .running | .abandoned => .inFlight
  | .succeeded => .done
  | .failed => .failed

/-- What the log keeps of an id whose executions are these: all but the last have failed. -/
inductive SchemaOp.Sound : Option SchemaOp → List Execution → Prop
  | fresh : Sound none []
  | claimed {sql : String} {older : List Execution} {outcome : ExecOutcome} :
      (∀ e ∈ older, e = ⟨sql, .failed⟩) → Sound (some ⟨sql, outcome.state⟩) (older ++ [⟨sql, outcome⟩])

namespace SchemaOp.Sound

variable {op : Option SchemaOp} {executions : List Execution} {sql : String} {outcome : ExecOutcome}

section

variable (sound : SchemaOp.Sound op executions)
include sound

theorem running (runs : executions[n]? = some ⟨sql, .running⟩) :
    op = some ⟨sql, .inFlight⟩ ∧ ∃ older, executions = older ++ [⟨sql, .running⟩] ∧ n = older.length ∧
      ∀ e ∈ older, e = ⟨sql, .failed⟩ := by
  cases sound with
  | fresh => simp at runs
  | @claimed bound older last failed =>
    have final : n = older.length := by
      by_contra differs
      rcases Nat.lt_or_gt_of_ne differs with before | after
      · rw [List.getElem?_append_left before] at runs
        cases failed _ (List.mem_of_getElem? runs)
      · rw [List.getElem?_append_right (by omega), List.getElem?_eq_none (by simp; omega)] at runs
        cases runs
    subst final
    simp only [List.getElem?_concat_length, Option.some.injEq, Execution.mk.injEq] at runs
    obtain ⟨rfl, rfl⟩ := runs
    exact ⟨rfl, older, rfl, rfl, failed⟩

theorem close (runs : executions[n]? = some ⟨sql, .running⟩)
    (outcome : ExecOutcome) : SchemaOp.Sound (some ⟨sql, outcome.state⟩) (executions.set n ⟨sql, outcome⟩) := by
  obtain ⟨-, older, rfl, rfl, failed⟩ := sound.running runs
  simpa using SchemaOp.Sound.claimed failed

theorem alone : (executions.filter Execution.unfinished).length ≤ 1 := by
  cases sound with
  | fresh => simp
  | @claimed sql older outcome failed =>
    have none : older.filter Execution.unfinished = [] :=
      List.filter_eq_nil_iff.mpr fun e member => by simp [failed e member, Execution.unfinished]
    rw [List.filter_append, none, List.nil_append]
    exact List.length_filter_le _ _

theorem once {i j : Nat} {e later : Execution} (before : i < j)
    (at_ : executions[i]? = some e) (after : executions[j]? = some later) : e.outcome ≠ .succeeded := by
  cases sound with
  | fresh => simp at at_
  | @claimed sql older outcome failed =>
    have bound := (List.getElem?_eq_some_iff.mp after).1
    rw [List.length_append, List.length_singleton] at bound
    rw [List.getElem?_append_left (by omega)] at at_
    simp [failed e (List.mem_of_getElem? at_)]

theorem sameSql {e other : Execution} (member : e ∈ executions)
    (also : other ∈ executions) : e.sql = other.sql := by
  cases sound with
  | fresh => cases member
  | @claimed sql older outcome failed =>
    have all : ∀ e ∈ older ++ [⟨sql, outcome⟩], e.sql = sql := by
      intro e member
      rcases List.mem_append.mp member with old | new
      · rw [failed e old]
      · rw [List.mem_singleton.mp new]
    exact (all e member).trans (all other also).symm

end

end SchemaOp.Sound

namespace SchemaAgent

variable {s t : SchemaAgent} {c : SchemaChoice}

def Sound (s : SchemaAgent) : Prop :=
  ∀ id, SchemaOp.Sound (s.ops id) (s.executions id)

theorem Sound.advance (sound : s.Sound) (id : String) {op : Option SchemaOp} {executions : List Execution}
    (own : SchemaOp.Sound op executions) (answers : List (String × Except SchemaStatus Unit)) :
    Sound ⟨update s.ops id op, update s.executions id executions, answers⟩ := by
  intro other
  by_cases same : other = id
  · subst same
    simpa using own
  · simpa [update_of_ne same] using sound other

theorem Sound.call (sound : s.Sound) (id sql : String) : (s.call id sql).Sound := by
  unfold SchemaAgent.call
  rcases SchemaLog.claim_cases s.ops id sql with ⟨e, refused⟩ | replays | ⟨free, executes⟩
  · rw [refused]
    exact sound
  · rw [replays]
    exact sound
  · rw [executes]
    have own := sound id
    suffices failed : ∀ e ∈ s.executions id, e = ⟨sql, .failed⟩ from
      sound.advance id (@SchemaOp.Sound.claimed sql _ .running failed) _
    generalize s.ops id = op, s.executions id = executions at own free
    cases own with
    | fresh => simp
    | @claimed bound older outcome failed =>
      simp only [reduceCtorEq, Option.some.injEq, SchemaOp.mk.injEq, false_or] at free
      obtain ⟨rfl, state⟩ := free
      have ended : outcome = .failed := by cases outcome <;> simp_all [ExecOutcome.state]
      subst ended
      intro e member
      rcases List.mem_append.mp member with old | new
      · exact failed e old
      · exact List.mem_singleton.mp new

theorem close_eq {outcome : ExecOutcome} (closed : s.close id n outcome = some t) :
    ∃ sql, (s.executions id)[n]? = some ⟨sql, .running⟩ ∧
      t = { s with executions := update s.executions id ((s.executions id).set n ⟨sql, outcome⟩) } := by
  unfold close at closed
  split at closed
  · cases closed
    exact ⟨_, ‹_›, rfl⟩
  · cases closed

theorem Sound.mark (sound : s.Sound) {outcome : ExecOutcome}
    (closed : s.close id n outcome = some t) (answers : List (String × Except SchemaStatus Unit)) :
    Sound { t with ops := t.ops.setState id outcome.state, answers := answers } := by
  obtain ⟨sql, runs, rfl⟩ := close_eq closed
  have next := sound.advance id ((sound id).close runs outcome) answers
  simpa [SchemaLog.setState, ((sound id).running runs).1] using next

theorem Sound.drop (sound : s.Sound) (closed : s.close id n .abandoned = some t) : t.Sound := by
  obtain ⟨sql, runs, rfl⟩ := close_eq closed
  have next := sound.advance id ((sound id).close runs .abandoned) s.answers
  simp only [ExecOutcome.state, ← ((sound id).running runs).1, update_eq_self] at next
  exact next

theorem Sound.next (sound : s.Sound) (taken : s.step c = some t) : t.Sound := by
  cases c with
  | call id sql =>
    cases taken
    exact sound.call id sql
  | succeed id n | fail id n message =>
    obtain ⟨closed, ended, rfl⟩ := Option.map_eq_some_iff.mp taken
    exact sound.mark ended _
  | drop id n => exact sound.drop taken

theorem start_sound : Sound {} := fun _ => .fresh

def Kept (s : SchemaAgent) (id : String) : Prop :=
  ∀ e ∈ s.executions id, e.outcome ≠ .abandoned

theorem Kept.close {other : String} {outcome : ExecOutcome} (kept : s.Kept id)
    (closed : s.close other n outcome = some t) (stays : other = id → outcome ≠ .abandoned) : t.Kept id := by
  obtain ⟨sql, -, rfl⟩ := close_eq closed
  intro e member
  by_cases same : id = other
  · subst same
    simp only [update_self] at member
    rcases List.mem_or_eq_of_mem_set member with old | new
    · exact kept e old
    · subst new
      exact stays rfl
  · simp only [update_of_ne same] at member
    exact kept e member

theorem Kept.next (kept : s.Kept id) (allowed : keepsHandlers id s c = true) (taken : s.step c = some t) :
    t.Kept id := by
  cases c with
  | call other sql =>
    cases taken
    unfold SchemaAgent.call
    split
    · exact kept
    · exact kept
    · intro e member
      by_cases same : id = other
      · subst same
        simp only [update_self, List.mem_append, List.mem_singleton] at member
        rcases member with old | rfl
        · exact kept e old
        · simp
      · simp only [update_of_ne same] at member
        exact kept e member
  | succeed other n | fail other n message =>
    obtain ⟨closed, ended, rfl⟩ := Option.map_eq_some_iff.mp taken
    exact fun e member => kept.close ended (by simp) e member
  | drop other n => exact kept.close taken fun same => absurd same (by simpa [keepsHandlers] using allowed)

theorem Sound.inFlight_iff (sound : s.Sound) (idle : ¬ s.Busy id) :
    (∃ sql, s.ops id = some ⟨sql, .inFlight⟩) ↔ ¬ s.Kept id := by
  have own := sound id
  unfold Busy at idle
  unfold Kept
  generalize s.ops id = op, s.executions id = executions at own idle
  cases own with
  | fresh => simp
  | @claimed sql older outcome failed =>
    have earlier : ∀ e ∈ older, e.outcome ≠ .abandoned := fun e member => by simp [failed e member]
    cases outcome with
    | running => exact absurd ⟨_, List.mem_append_right _ (List.mem_singleton.mpr rfl), rfl⟩ idle
    | abandoned => simp [ExecOutcome.state]
    | succeeded | failed => simpa [ExecOutcome.state] using earlier

/-- What the log promises of an id: executions never overlap, none follows one that succeeded,
all run the same statement, and without a handler no retry is refused as in flight. -/
structure Orderly (s : SchemaAgent) (id : String) : Prop where
  alone : ((s.executions id).filter Execution.unfinished).length ≤ 1
  once : ∀ {i j : Nat} {e later : Execution}, i < j → (s.executions id)[i]? = some e →
    (s.executions id)[j]? = some later → e.outcome ≠ .succeeded
  sameSql : ∀ e ∈ s.executions id, ∀ other ∈ s.executions id, e.sql = other.sql
  unstuck : ¬ s.Busy id → ∀ sql, s.ops.claim id sql ≠ .error (.inFlight id)

theorem Sound.orderly (sound : s.Sound) (kept : s.Kept id) : s.Orderly id where
  alone := (sound id).alone
  once := (sound id).once
  sameSql _ member _ also := (sound id).sameSql member also
  unstuck idle sql refused :=
    (sound.inFlight_iff idle).mp ⟨sql, SchemaLog.claim_inFlight refused⟩ kept

end SchemaAgent

/-- In every run in which no handler of an id is dropped, the id's executions are orderly and
it is never stuck. -/
theorem schema_orderly_of_kept {id : String} {s : SchemaAgent}
    (reached : Runs.Under SchemaAgent.step (SchemaAgent.keepsHandlers id) {} s) : s.Orderly id := by
  have sound : s.Sound := reached.invariant SchemaAgent.start_sound fun _ _ _ sound _ taken => sound.next taken
  have kept : s.Kept id := by
    induction reached with
    | start => simp [SchemaAgent.Kept]
    | next before allowed taken ih =>
      have earlier := before.invariant SchemaAgent.start_sound fun _ _ _ sound _ taken => sound.next taken
      exact (ih earlier).next allowed taken
  exact sound.orderly kept

/-- A failed index build is retried, with the handler of another operation dropped meanwhile. -/
theorem schema_orderly_retried : ∃ s, Runs.Under SchemaAgent.step (SchemaAgent.keepsHandlers "index") {} s ∧
    s.executions "index" = [⟨"CREATE INDEX i ON t (a)", .failed⟩, ⟨"CREATE INDEX i ON t (a)", .succeeded⟩] ∧
    s.Orderly "index" := by
  have ran : (Runs.exec SchemaAgent.step (SchemaAgent.keepsHandlers "index") {}
      [.call "index" "CREATE INDEX i ON t (a)", .call "table" "CREATE TABLE u ()", .fail "index" 0 "lock timeout",
        .drop "table" 0, .call "index" "CREATE INDEX i ON t (a)", .call "index" "CREATE INDEX i ON t (a)",
        .succeed "index" 1]).any (fun s => s.executions "index" ==
          [⟨"CREATE INDEX i ON t (a)", .failed⟩, ⟨"CREATE INDEX i ON t (a)", .succeeded⟩]) = true := by decide +kernel
  obtain ⟨s, reached, holds⟩ := Runs.Under.exists_of_exec ran
  exact ⟨s, reached, beq_iff_eq.mp holds, schema_orderly_of_kept reached⟩

/-- The client hangs up while the statement runs: no handler is left, and every retry is refused
as in flight. -/
theorem dropped_handler_sticks : ∃ s, Runs.Under SchemaAgent.step (fun _ _ => true) {} s ∧ ¬ s.Busy "index" ∧
    s.ops.claim "index" "CREATE INDEX i ON t (a)" = .error (.inFlight "index") := by
  have ran : (Runs.exec SchemaAgent.step (fun _ _ => true) {}
      [.call "index" "CREATE INDEX i ON t (a)", .drop "index" 0]).any (fun s =>
        s.executions "index" == [⟨"CREATE INDEX i ON t (a)", .abandoned⟩] &&
          s.ops "index" == some ⟨"CREATE INDEX i ON t (a)", .inFlight⟩) = true := by decide +kernel
  obtain ⟨s, reached, holds⟩ := Runs.Under.exists_of_exec ran
  simp only [Bool.and_eq_true, beq_iff_eq] at holds
  exact ⟨s, reached, by simp [SchemaAgent.Busy, holds.1], by simp [SchemaLog.claim, holds.2]⟩

end PgShard.Agent
