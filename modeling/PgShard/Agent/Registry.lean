import PgShard.Lib.Checked
import PgShard.Lib.Runs
import PgShard.Agent.Workflow
import PgShard.Lib.Quote

/-! The workflow registry of an agent: the handles of the seeding workers by workflow id, and
the workers themselves. -/

namespace PgShard.Agent

structure TableRef where
  schema : String
  name : String
  deriving DecidableEq

structure TableMapping where
  source : Option TableRef
  target : Option TableRef := none
  columnMap : List (String × String) := []
  shardKeyColumn : String
  shardKeyType : String
  deriving DecidableEq

structure PgEndpoint where
  host : String
  port : Nat
  database : String
  deriving DecidableEq

structure KeyRangeFilter where
  range : Option (Fin (2 ^ 64) × Option (Fin (2 ^ 64)))
  hashFunction : String
  deriving DecidableEq

inductive RowFilter
  | all (value : Bool)
  | keyRange (filter : KeyRangeFilter)
  deriving DecidableEq

/-- A workflow spec as it arrives on the wire. Enumerations are their numbers there. -/
structure WorkflowSpec where
  id : String
  kind : Int := 1
  sourceShard : String := ""
  sourcePrimary : Option PgEndpoint
  sourceStandbys : List PgEndpoint := []
  sourcePolicy : Int := 0
  slot : String
  publication : String
  tables : List TableMapping
  filter : Option RowFilter
  targetDatabase : String
  expectProvenance : String
  deriving DecidableEq

structure WorkflowConfig where
  sourceUser : String
  sourcePassword : String

inductive StartError
  | invalid (message : String)
  | conflict (id : String)
  | targetBusy (id target : String)
  | stopping (id : String)
  | unimplemented (what detail : String)
  deriving DecidableEq

def StartError.message : StartError → String
  | .invalid message => "invalid workflow spec: " ++ message
  | .conflict id => "workflow " ++ id ++ " is already running with a different spec"
  | .targetBusy id target => "workflow " ++ id ++ " is already seeding target database " ++ target
  | .stopping id => "workflow " ++ id ++ " is stopping; retry once it has terminated"
  | .unimplemented what detail => what ++ " is not implemented in M1: " ++ detail

/-! ### Validating a spec -/

def isSafeIdent (name : String) : Bool :=
  name != "" && name.utf8ByteSize ≤ 63 && name.toList.all fun c => c.isAlphanum || c == '_'

def scalarType (wire : String) : Except StartError ScalarType :=
  if wire = "int" then .ok .int
  else if wire = "text" then .ok .text
  else if wire = "uuid" then .ok .uuid
  else if wire = "bytea" then .ok .bytea
  else .error (.invalid ("unknown shard key type " ++ Quote.debug wire ++ " (expected int|text|uuid|bytea)"))

structure WorkflowPlan where
  id : String
  source : PgEndpoint
  sourceUser : String
  sourcePassword : String
  slot : String
  publication : String
  targetDatabase : String
  expectProvenance : String
  tables : List TablePlan
  range : KeyRange
  hashFunction : String

def checkSpec (spec : WorkflowSpec) : Except StartError PgEndpoint := do
  if spec.id = "" then .error (.invalid "id is required")
  if spec.kind ≠ 1 then
    .error (.invalid ("workflow kind " ++ toString spec.kind ++ " is not runnable here (only WORKFLOW_KIND_RESHARD)"))
  if !isSafeIdent spec.slot then .error (.invalid ("slot " ++ Quote.debug spec.slot ++ " is not a safe identifier"))
  if !"pgshard_".toList.isPrefixOf spec.slot.toList then
    .error (.invalid ("slot " ++ Quote.debug spec.slot ++ " must carry the pgshard_ prefix (INIT drops a stale slot by name)"))
  if !isSafeIdent spec.publication then
    .error (.invalid ("publication " ++ Quote.debug spec.publication ++ " is not a safe identifier"))
  if spec.targetDatabase = "" ∨ 63 < spec.targetDatabase.utf8ByteSize then
    .error (.invalid "target_database is required (and at most 63 bytes)")
  if spec.expectProvenance = "" then
    .error (.invalid ("expect_provenance is required: seeding truncates the target, so the " ++
      "target database's provenance marker must be verified first"))
  match spec.sourcePrimary.filter fun e => e.host != "" && e.port != 0 && e.database != "" with
  | none => .error (.invalid "source_primary host/port/database are required")
  | some source =>
    if 65535 < source.port then
      .error (.invalid ("source_primary port " ++ toString source.port ++ " is out of range"))
    if spec.sourcePolicy ≠ 1 ∧ spec.sourcePolicy ≠ 0 then
      .error (.unimplemented "source policy" "standby sourcing lands with anchor slots; use SOURCE_POLICY_PRIMARY")
    .ok source

def mappedTwice (earlier : List TableRef) : List TableMapping → Option TableRef
  | [] => none
  | m :: rest =>
    match m.source with
    | some a => if a ∈ earlier then some a else mappedTwice (a :: earlier) rest
    | none => mappedTwice earlier rest

def hex64 (n : Fin (2 ^ 64)) : String :=
  let digits := Nat.toDigits 16 n
  "0x" ++ String.ofList (List.replicate (16 - digits.length) '0' ++ digits)

def planFilter : Option RowFilter → Except StartError (KeyRange × String)
  | some (.all true) => .ok (KeyRange.full, "xxhash64_v1")
  | some (.keyRange kr) =>
    match kr.range with
    | none => .error (.invalid "key_range.range is required")
    | some (start, stop) =>
      match KeyRange.new start stop with
      | .error _ => .error (.invalid ("empty range: start " ++ hex64 start ++ " >= end " ++ hex64 (stop.getD 0)))
      | .ok range =>
        if kr.hashFunction = "xxhash64_v1" then .ok (range, kr.hashFunction)
        else .error (.invalid ("unknown hash function " ++ Quote.debug kr.hashFunction))
  | _ => .error (.invalid "filter must be set (all, or a key range)")

def planTable (m : TableMapping) : Except StartError TablePlan :=
  match m.source.filter fun t => t.schema != "" && t.name != "" with
  | none => .error (.invalid "table source schema/name required")
  | some src => do
    if m.target.any fun t => t != src && !(t.schema == "" && t.name == "") then
      .error (.unimplemented "table renaming" (src.schema ++ "." ++ src.name ++ " must map to itself"))
    if !m.columnMap.isEmpty then .error (.unimplemented "column mapping" (src.schema ++ "." ++ src.name))
    if m.shardKeyColumn = "" then
      .error (.invalid ("table " ++ src.schema ++ "." ++ src.name ++ " has no shard key column"))
    let shardKeyType ← scalarType m.shardKeyType
    .ok { schema := src.schema, name := src.name, shardKeyColumn := m.shardKeyColumn, shardKeyType }

def checkTables (tables : List TableMapping) : Except StartError Unit :=
  if tables.isEmpty then .error (.invalid "at least one table mapping is required")
  else
    match mappedTwice [] tables with
    | some a => .error (.invalid ("table " ++ a.schema ++ "." ++ a.name ++ " is mapped twice"))
    | none => .ok ()

def plan (spec : WorkflowSpec) (config : WorkflowConfig) : Except StartError WorkflowPlan := do
  let source ← checkSpec spec
  checkTables spec.tables
  let (range, hashFunction) ← planFilter spec.filter
  let tables ← spec.tables.mapM planTable
  .ok {
    id := spec.id, source, sourceUser := config.sourceUser, sourcePassword := config.sourcePassword, slot := spec.slot
    publication := spec.publication, targetDatabase := spec.targetDatabase, expectProvenance := spec.expectProvenance
    tables, range, hashFunction }

/-! ### Workers -/

inductive WorkflowPhase
  | init
  | copy
  | streaming
  | stopped
  | error
  deriving DecidableEq

def WorkflowPhase.terminal (phase : WorkflowPhase) : Bool := phase == .stopped || phase == .error

/-- How far the task of a worker is: its runner runs, has returned and dropped its end of the
stop channel, or the task has terminated. -/
inductive WorkerStage
  | running
  | returned
  | finished
  deriving DecidableEq

/-- A spawned worker. `stop` is the value of its stop channel; `told` remembers that a stop was
requested of it. -/
structure Worker where
  spec : WorkflowSpec
  phase : WorkflowPhase := .init
  stage : WorkerStage := .running
  stop : Bool := false
  told : Bool := false
  deriving DecidableEq

def Worker.fresh (spec : WorkflowSpec) : Worker where
  spec := spec

@[simp]
theorem Worker.fresh_spec (spec : WorkflowSpec) : (Worker.fresh spec).spec = spec := rfl

def Worker.unfinished (w : Worker) : Bool := w.stage != .finished

def Worker.windingDown (w : Worker) : Bool := w.phase == .error || w.phase == .stopped || w.stop

def Worker.sendStop (w : Worker) : Worker :=
  { w with stop := if w.stage = .running then true else w.stop, told := w.told || w.unfinished }

/-- A registry entry. The spec stands for its encoding, which is injective on the specs `plan`
accepts, as their column maps are empty. -/
structure WorkflowHandle where
  spec : WorkflowSpec
  targetDatabase : String
  worker : Nat
  deriving DecidableEq

structure WorkflowRegistry where
  inner : List (String × WorkflowHandle) := []
  workers : List Worker := []

inductive RegistryChoice
  | start (spec : WorkflowSpec)
  | stop (id : String)
  /-- The runner publishes a phase. -/
  | publish (w : Nat) (phase : WorkflowPhase)
  /-- The runner returns. -/
  | ret (w : Nat)
  /-- The task of a runner that has failed publishes the error. -/
  | report (w : Nat)
  /-- The task terminates. -/
  | finish (w : Nat)
  deriving DecidableEq

namespace WorkflowRegistry

def live (s : WorkflowRegistry) (h : WorkflowHandle) : Option Worker := s.workers[h.worker]?.filter Worker.unfinished

def holder (s : WorkflowRegistry) (id target : String) : Option (String × Worker) :=
  s.inner.findSome? fun (other, h) =>
    if other ≠ id ∧ h.targetDatabase = target then (s.live h).map (other, ·) else none

def insert (s : WorkflowRegistry) (id : String) (h : WorkflowHandle) : WorkflowRegistry :=
  { s with inner := (id, h) :: s.inner.filter (·.1 ≠ id) }

def spawn (s : WorkflowRegistry) (spec : WorkflowSpec) (run : WorkflowPlan) : WorkflowRegistry :=
  let spawned : WorkflowRegistry := { s with workers := s.workers ++ [.fresh spec] }
  spawned.insert run.id ⟨spec, run.targetDatabase, s.workers.length⟩

def start (config : WorkflowConfig) (s : WorkflowRegistry) (spec : WorkflowSpec) :
    Except StartError Unit × WorkflowRegistry :=
  match plan spec config with
  | .error e => (.error e, s)
  | .ok run =>
    match (s.inner.lookup run.id).bind fun h => (s.live h).map (h, ·) with
    | some (h, worker) =>
      if worker.windingDown then (.error (.stopping run.id), s)
      else if h.spec = spec then (.ok (), s)
      else (.error (.conflict run.id), s)
    | none =>
      match s.holder run.id run.targetDatabase with
      | some (other, worker) =>
        if worker.windingDown then (.error (.stopping other), s)
        else (.error (.targetBusy other run.targetDatabase), s)
      | none => (.ok (), s.spawn spec run)

def update (s : WorkflowRegistry) (w : Nat) (f : Worker → Worker) : WorkflowRegistry :=
  { s with workers := s.workers.modify w f }

def stop (s : WorkflowRegistry) (id : String) : WorkflowRegistry :=
  match s.inner.lookup id with
  | some h => s.update h.worker Worker.sendStop
  | none => s

def moves (s : WorkflowRegistry) (w : Nat) (can : Worker → Bool) (f : Worker → Worker) : Option WorkflowRegistry :=
  if s.workers[w]?.any can then some (s.update w f) else none

def step (config : WorkflowConfig) (s : WorkflowRegistry) : RegistryChoice → Option WorkflowRegistry
  | .start spec => some (s.start config spec).2
  | .stop id => some (s.stop id)
  -- a runner publishes that it has stopped only after it has seen the signal
  | .publish w phase => s.moves w
      (fun k => k.stage == .running && !k.phase.terminal && phase != .error && (phase != .stopped || k.stop))
      fun k => { k with phase }
  | .ret w => s.moves w (fun k => k.stage == .running) fun k => { k with stage := .returned }
  | .report w => s.moves w (fun k => k.stage == .returned && !k.phase.terminal) fun k => { k with phase := .error }
  | .finish w => s.moves w (fun k => k.stage == .returned) fun k => { k with stage := .finished }

/-- No stop is requested of a worker whose runner has returned before its status says so. -/
def stopsHeard (s : WorkflowRegistry) : RegistryChoice → Bool
  | .stop id => (s.inner.lookup id).all fun h => (s.live h).all fun k => k.stage == .running || k.phase.terminal
  | _ => true

end WorkflowRegistry

variable {k : Worker} {spec : WorkflowSpec} {run : WorkflowPlan} {id : String} {f : Worker → Worker}

theorem Worker.sendStop_windingDown (heard : k.told = true → k.windingDown = true)
    (listens : k.unfinished = true → (k.stage == .running || k.phase.terminal) = true) (told : k.sendStop.told = true) :
    k.sendStop.windingDown = true := by
  cases stage : k.stage with
  | running => simp [sendStop, windingDown, stage]
  | returned =>
    have ended := listens (by simp [unfinished, stage])
    simp only [stage, WorkflowPhase.terminal, Bool.or_eq_true, beq_iff_eq, reduceCtorEq, false_or] at ended
    rcases ended with ended | ended <;> simp [sendStop, windingDown, ended]
  | finished =>
    simp only [sendStop, unfinished, stage, bne_self_eq_false, Bool.or_false] at told
    simpa [sendStop, windingDown, stage] using heard told

/-! ## What a plan keeps of its spec -/

theorem plan_spec {config : WorkflowConfig} (planned : plan spec config = .ok run) :
    run.id = spec.id ∧ run.targetDatabase = spec.targetDatabase := by
  obtain ⟨source, -, planned⟩ := Checked.bind_ok planned
  obtain ⟨_, -, planned⟩ := Checked.bind_ok planned
  obtain ⟨⟨range, hash⟩, -, planned⟩ := Checked.bind_ok planned
  obtain ⟨tables, -, planned⟩ := Checked.bind_ok planned
  cases planned
  exact ⟨rfl, rfl⟩

/-! ## One worker for an id and a target -/

namespace WorkflowRegistry

variable {config : WorkflowConfig} {s t : WorkflowRegistry} {c : RegistryChoice}

theorem lookup_insert (s : WorkflowRegistry) (id : String) (h : WorkflowHandle) : (s.insert id h).inner.lookup id = some h := by
  simp [insert]

theorem lookup_insert_of_ne {other : String} (differs : other ≠ id) (h : WorkflowHandle) :
    (s.insert id h).inner.lookup other = s.inner.lookup other := by
  have apart : (other == id) = false := by simpa using differs
  simp only [insert, List.lookup_cons, apart]
  induction s.inner with
  | nil => rfl
  | cons entry rest ih =>
    obtain ⟨key, value⟩ := entry
    by_cases own : key = id
    · subst own
      simpa [List.lookup_cons, apart] using ih
    · simp only [List.filter_cons, own, not_false_eq_true, decide_true, if_true, List.lookup_cons, ne_eq]
      rw [ih]

/-- Workers that have not terminated are registered under their id, handles are those of their
worker, and no target has two such workers. -/
structure Sound (s : WorkflowRegistry) : Prop where
  registered : ∀ {w : Nat} {k : Worker}, s.workers[w]? = some k → k.unfinished = true →
    s.inner.lookup k.spec.id = some ⟨k.spec, k.spec.targetDatabase, w⟩
  handles : ∀ {id : String} {h : WorkflowHandle}, s.inner.lookup id = some h → ∃ k, s.workers[h.worker]? = some k ∧
    h = ⟨k.spec, k.spec.targetDatabase, h.worker⟩ ∧ k.spec.id = id
  targets : ∀ {v w : Nat} {j k : Worker}, s.workers[v]? = some j → s.workers[w]? = some k → j.unfinished = true →
    k.unfinished = true → j.spec.targetDatabase = k.spec.targetDatabase → v = w

theorem live_iff {h : WorkflowHandle} :
    s.live h = some k ↔ s.workers[h.worker]? = some k ∧ k.unfinished = true := by
  simp [live, Option.filter_eq_some_iff]

theorem Sound.update (sound : s.Sound) (w : Nat) (same : ∀ k, (f k).spec = k.spec)
    (ends : ∀ k, s.workers[w]? = some k → (f k).unfinished = true → k.unfinished = true) : (s.update w f).Sound := by
  -- a worker after the step is one before it, with the same spec
  have before : ∀ {v : Nat} {k : Worker}, (s.update w f).workers[v]? = some k → ∃ j, s.workers[v]? = some j ∧ k.spec = j.spec ∧
      (k.unfinished = true → j.unfinished = true) := by
    intro v k found
    simp only [WorkflowRegistry.update, List.getElem?_modify, Option.map_eq_map, Option.map_eq_some_iff] at found
    obtain ⟨j, old, rfl⟩ := found
    refine ⟨j, old, ?_⟩
    split_ifs with here
    · exact ⟨same j, ends j (here ▸ old)⟩
    · exact ⟨rfl, id⟩
  refine ⟨fun found runs => ?_, fun {id h} found => ?_, fun first second left right target => ?_⟩
  · obtain ⟨j, old, spec, ran⟩ := before found
    rw [spec]
    exact sound.registered old (ran runs)
  · obtain ⟨k, old, own, named⟩ := sound.handles found
    refine ⟨if w = h.worker then f k else k, by simp [WorkflowRegistry.update, List.getElem?_modify, old], ?_⟩
    split_ifs
    · rw [same k]
      exact ⟨own, named⟩
    · exact ⟨own, named⟩
  · obtain ⟨i, old, spec, ran⟩ := before first
    obtain ⟨j, other, specs, runs⟩ := before second
    rw [spec, specs] at target
    exact sound.targets old other (ran left) (runs right) target

theorem spawn_workers :
    (s.spawn spec run).workers = s.workers ++ [.fresh spec] := rfl

theorem spawn_cases {w : Nat}
    (found : (s.spawn spec run).workers[w]? = some k) :
    s.workers[w]? = some k ∨ w = s.workers.length ∧ k = .fresh spec := by
  rw [spawn_workers, List.getElem?_append] at found
  split_ifs at found with below
  · exact .inl found
  · obtain ⟨bound, same⟩ := List.getElem?_eq_some_iff.mp found
    simp only [List.length_singleton] at bound
    exact .inr ⟨by omega, by simp_all⟩

theorem Sound.spawn (sound : s.Sound) (named : run.id = spec.id)
    (aimed : run.targetDatabase = spec.targetDatabase)
    (idle : ∀ (w : Nat) (k : Worker), s.workers[w]? = some k → k.unfinished = true → k.spec.id ≠ spec.id)
    (free : ∀ (w : Nat) (k : Worker), s.workers[w]? = some k → k.unfinished = true → k.spec.targetDatabase ≠ spec.targetDatabase) :
    (s.spawn spec run).Sound := by
  refine ⟨fun {v k} found runs => ?_, fun {id h} found => ?_, fun {u v j k} first second left right target => ?_⟩
  · rcases spawn_cases found with old | ⟨rfl, rfl⟩
    · have apart : k.spec.id ≠ run.id := named ▸ idle v k old runs
      exact (lookup_insert_of_ne apart _).trans (sound.registered old runs)
    · rw [Worker.fresh_spec, ← named, ← aimed]
      exact lookup_insert _ _ _
  · by_cases same : id = run.id
    · subst same
      have own := Option.some.inj ((lookup_insert _ _ _).symm.trans found)
      subst own
      exact ⟨.fresh spec, by simp [spawn_workers], by simp [aimed], named.symm⟩
    · obtain ⟨k, old, own⟩ := sound.handles ((lookup_insert_of_ne same _).symm.trans found)
      exact ⟨k, by rw [spawn_workers, List.getElem?_append_left (List.getElem?_eq_some_iff.mp old).1, old], own⟩
  · rcases spawn_cases first with old | ⟨rfl, rfl⟩ <;> rcases spawn_cases second with other | ⟨rfl, rfl⟩
    · exact sound.targets old other left right target
    · exact absurd target (free u j old left)
    · exact absurd target.symm (free v k other right)
    · rfl

theorem Sound.start_cases (sound : s.Sound) (config : WorkflowConfig) (spec : WorkflowSpec) :
    ((s.start config spec).2 = s ∧ ((s.start config spec).1 = .ok () → ∃ w k,
        s.inner.lookup spec.id = some ⟨spec, spec.targetDatabase, w⟩ ∧ s.workers[w]? = some k ∧ k.spec = spec ∧
        k.unfinished = true ∧ k.windingDown = false)) ∨
    ∃ run, plan spec config = .ok run ∧ (s.start config spec).2 = s.spawn spec run ∧
      (∀ (w : Nat) (k : Worker), s.workers[w]? = some k → k.unfinished = true → k.spec.id ≠ spec.id) ∧
      ∀ (w : Nat) (k : Worker), s.workers[w]? = some k → k.unfinished = true →
        k.spec.targetDatabase ≠ spec.targetDatabase := by
  unfold start
  cases planned : plan spec config with
  | error e => exact .inl ⟨rfl, by simp⟩
  | ok run =>
    obtain ⟨named, aimed⟩ := plan_spec planned
    simp only
    cases existing : (s.inner.lookup run.id).bind fun h => (s.live h).map (h, ·) with
    | some pair =>
      obtain ⟨h, found, pair⟩ := Option.bind_eq_some_iff.mp existing
      obtain ⟨k, lives, rfl⟩ := Option.map_eq_some_iff.mp pair
      obtain ⟨at_, runs⟩ := live_iff.mp lives
      simp only
      split_ifs with winding same
      · exact .inl ⟨rfl, by simp⟩
      · obtain ⟨j, there, own, -⟩ := sound.handles found
        cases at_.symm.trans there
        have spec_ : k.spec = spec := by rw [← same, own]
        refine .inl ⟨rfl, fun _ => ⟨h.worker, k, ?_, at_, spec_, runs, by simpa using winding⟩⟩
        rw [← named, found, own, spec_]
      · exact .inl ⟨rfl, by simp⟩
    | none =>
      simp only
      have idle : ∀ (w : Nat) (k : Worker), s.workers[w]? = some k → k.unfinished = true → k.spec.id ≠ spec.id := by
        intro w k at_ runs same
        have found := sound.registered at_ runs
        rw [same, ← named] at found
        have lives : s.live ⟨k.spec, k.spec.targetDatabase, w⟩ = some k := live_iff.mpr ⟨at_, runs⟩
        simp [found, lives] at existing
      cases held : s.holder run.id run.targetDatabase with
      | some pair =>
        obtain ⟨other, k⟩ := pair
        simp only
        split_ifs <;> exact .inl ⟨rfl, by simp⟩
      | none =>
        refine .inr ⟨run, rfl, rfl, idle, fun w k at_ runs same => ?_⟩
        obtain ⟨before, after, split, -⟩ := List.lookup_eq_some_iff.mp (sound.registered at_ runs)
        have member : (k.spec.id, (⟨k.spec, k.spec.targetDatabase, w⟩ : WorkflowHandle)) ∈ s.inner := by simp [split]
        have free := List.findSome?_eq_none_iff.mp held _ member
        have lives : s.live ⟨k.spec, k.spec.targetDatabase, w⟩ = some k := live_iff.mpr ⟨at_, runs⟩
        rw [same] at lives
        simp [named, aimed, idle w k at_ runs, same, lives] at free

theorem moves_eq {w : Nat} {can : Worker → Bool} (moved : s.moves w can f = some t) :
    t = s.update w f ∧ ∃ k, s.workers[w]? = some k ∧ can k = true := by
  unfold moves at moved
  split_ifs at moved with able
  cases moved
  exact ⟨rfl, (Option.any_eq_true _ _).mp able⟩

theorem Sound.stop (sound : s.Sound) (id : String) : (s.stop id).Sound := by
  unfold WorkflowRegistry.stop
  split
  · exact sound.update _ (fun _ => rfl) fun _ _ runs => runs
  · exact sound

theorem Sound.next (sound : s.Sound) (taken : s.step config c = some t) : t.Sound := by
  cases c with
  | start spec =>
    cases taken
    rcases sound.start_cases config spec with ⟨same, -⟩ | ⟨run, planned, spawned, idle, free⟩
    · rwa [same]
    · rw [spawned]
      exact sound.spawn (plan_spec planned).1 (plan_spec planned).2 idle free
  | stop id =>
    cases taken
    exact sound.stop id
  | publish w phase | report w =>
    obtain ⟨rfl, -⟩ := moves_eq taken
    exact sound.update w (fun _ => rfl) fun _ _ runs => runs
  | ret w =>
    obtain ⟨rfl, k, at_, running⟩ := moves_eq taken
    refine sound.update w (fun _ => rfl) fun j there _ => ?_
    cases at_.symm.trans there
    simp_all [Worker.unfinished]
  | finish w =>
    obtain ⟨rfl, -⟩ := moves_eq taken
    exact sound.update w (fun _ => rfl) fun _ _ runs => by simp [Worker.unfinished] at runs

theorem start_sound : Sound {} where
  registered found := by simp at found
  handles found := by simp at found
  targets found := by simp at found

/-- A worker that was told to stop shows it. -/
def Heard (s : WorkflowRegistry) : Prop :=
  ∀ (w : Nat) (k : Worker), s.workers[w]? = some k → k.told = true → k.windingDown = true

theorem Heard.update (heard : s.Heard) (w : Nat)
    (shows : ∀ k, s.workers[w]? = some k → (f k).told = true → (f k).windingDown = true) : (s.update w f).Heard := by
  intro v k found
  simp only [WorkflowRegistry.update, List.getElem?_modify, Option.map_eq_map, Option.map_eq_some_iff] at found
  obtain ⟨j, old, rfl⟩ := found
  split_ifs with here
  · exact shows j (here ▸ old)
  · exact heard v j old

theorem Heard.stop (heard : s.Heard) (listens : s.stopsHeard (.stop id) = true) : (s.stop id).Heard := by
  unfold WorkflowRegistry.stop
  cases found : s.inner.lookup id with
  | none => exact heard
  | some h =>
    refine heard.update _ fun k at_ told => Worker.sendStop_windingDown (heard _ k at_) (fun runs => ?_) told
    have lives : s.live h = some k := live_iff.mpr ⟨at_, runs⟩
    simpa only [stopsHeard, found, lives, Option.all_some] using listens

theorem Heard.next (heard : s.Heard) (sound : s.Sound) (allowed : s.stopsHeard c = true)
    (taken : s.step config c = some t) : t.Heard := by
  cases c with
  | start spec =>
    cases taken
    rcases sound.start_cases config spec with ⟨same, -⟩ | ⟨run, -, spawned, -⟩
    · rwa [same]
    · rw [spawned]
      intro w k found told
      rcases spawn_cases found with old | ⟨-, rfl⟩
      · exact heard w k old told
      · cases told
  | stop id =>
    cases taken
    exact heard.stop allowed
  | publish w phase =>
    obtain ⟨rfl, k, at_, able⟩ := moves_eq taken
    refine heard.update w fun j there told => ?_
    cases at_.symm.trans there
    -- the phase was not terminal, so the worker showed its stop by the signal
    simp only [WorkflowPhase.terminal, Bool.and_eq_true, Bool.not_eq_true', Bool.or_eq_false_iff] at able
    have shown := heard w k at_ told
    simp only [Worker.windingDown, able.1.1.2.1, able.1.1.2.2, Bool.false_or] at shown
    simp [Worker.windingDown, shown]
  | ret w | finish w =>
    obtain ⟨rfl, -⟩ := moves_eq taken
    exact heard.update w fun k at_ told => (heard w k at_ told :)
  | report w =>
    obtain ⟨rfl, -⟩ := moves_eq taken
    exact heard.update w fun k _ _ => by simp [Worker.windingDown]

/-- What the registry promises: no id and no target has two workers that have not terminated, a
start that succeeds leaves one that runs its spec and was not told to stop, and no such worker is
replaced. -/
structure Admits (config : WorkflowConfig) (s : WorkflowRegistry) : Prop where
  oneById : ∀ {v w : Nat} {j k : Worker}, s.workers[v]? = some j → s.workers[w]? = some k → j.unfinished = true →
    k.unfinished = true → j.spec.id = k.spec.id → v = w
  oneByTarget : ∀ {v w : Nat} {j k : Worker}, s.workers[v]? = some j → s.workers[w]? = some k → j.unfinished = true →
    k.unfinished = true → j.spec.targetDatabase = k.spec.targetDatabase → v = w
  started : ∀ {spec : WorkflowSpec} {t : WorkflowRegistry}, s.start config spec = (.ok (), t) → ∃ h k,
    t.inner.lookup spec.id = some h ∧ t.live h = some k ∧ k.spec = spec ∧ k.told = false
  kept : ∀ {c : RegistryChoice} {t : WorkflowRegistry} {id : String} {h : WorkflowHandle}, s.step config c = some t →
    s.inner.lookup id = some h → (s.live h).isSome = true → t.inner.lookup id = some h

theorem Sound.kept (sound : s.Sound) {h : WorkflowHandle} (taken : s.step config c = some t)
    (found : s.inner.lookup id = some h) (lives : (s.live h).isSome = true) : t.inner.lookup id = some h := by
  cases c with
  | start spec =>
    cases taken
    rcases sound.start_cases config spec with ⟨same, -⟩ | ⟨run, planned, spawned, idle, -⟩
    · rwa [same]
    · rw [spawned]
      obtain ⟨k, live⟩ := Option.isSome_iff_exists.mp lives
      obtain ⟨at_, runs⟩ := live_iff.mp live
      obtain ⟨j, there, -, named⟩ := sound.handles found
      cases at_.symm.trans there
      have apart : id ≠ run.id := by
        rw [(plan_spec planned).1, ← named]
        exact idle _ k at_ runs
      exact (lookup_insert_of_ne apart _).trans found
  | stop other =>
    cases taken
    unfold WorkflowRegistry.stop
    split <;> exact found
  | publish w phase | ret w | report w | finish w =>
    obtain ⟨rfl, -⟩ := moves_eq taken
    exact found

theorem Sound.admits (sound : s.Sound) (heard : s.Heard) : s.Admits config where
  oneById first second left right same := by
    have one := sound.registered first left
    rw [same] at one
    have two := one.symm.trans (sound.registered second right)
    exact (WorkflowHandle.mk.inj (Option.some.inj two)).2.2
  oneByTarget := sound.targets
  started {spec t} ok := by
    have answer : (s.start config spec).1 = .ok () := congrArg Prod.fst ok
    have after : (s.start config spec).2 = t := congrArg Prod.snd ok
    rcases sound.start_cases config spec with ⟨same, running⟩ | ⟨run, planned, spawned, -⟩
    · obtain ⟨w, k, found, at_, own, runs, fresh⟩ := running answer
      rw [← after, same]
      refine ⟨_, k, found, live_iff.mpr ⟨at_, runs⟩, own, ?_⟩
      by_contra told
      rw [Bool.not_eq_false] at told
      exact absurd (heard w k at_ told) (by simp [fresh])
    · rw [← after, spawned]
      refine ⟨⟨spec, run.targetDatabase, s.workers.length⟩, .fresh spec, ?_, live_iff.mpr ⟨?_, rfl⟩, rfl, rfl⟩
      · rw [← (plan_spec planned).1]
        exact lookup_insert _ _ _
      · simp [spawn_workers]
  kept := sound.kept

end WorkflowRegistry

/-- In every run in which no stop comes between the return of a failed runner and its error
status, the registry keeps one worker for each id and target, and a start is answered only by a
worker that runs its spec and was not told to stop. -/
theorem registry_admits_of_heard {config : WorkflowConfig} {s : WorkflowRegistry}
    (reached : Runs.Under (WorkflowRegistry.step config) WorkflowRegistry.stopsHeard {} s) : s.Admits config := by
  have both : s.Sound ∧ s.Heard := by
    induction reached with
    | start => exact ⟨WorkflowRegistry.start_sound, fun w k found => by simp at found⟩
    | next _ allowed taken ih => exact ⟨ih.1.next taken, ih.2.next ih.1 allowed taken⟩
  exact both.1.admits both.2

def seedSpec : WorkflowSpec where
  id := "split"
  sourcePrimary := some ⟨"main-0", 5432, "main"⟩
  slot := "pgshard_split"
  publication := "pgshard_split"
  tables := [{ source := some ⟨"public", "orders"⟩, shardKeyColumn := "id", shardKeyType := "int" }]
  filter := some (.keyRange ⟨some (0, some 9), "xxhash64_v1"⟩)
  targetDatabase := "low"
  expectProvenance := "uid"

/-- A stopped worker is replaced once it has terminated. -/
theorem registry_admits_restarted : ∃ s, Runs.Under (WorkflowRegistry.step ⟨"repl", "secret"⟩) WorkflowRegistry.stopsHeard {} s ∧
    s.workers.length = 2 ∧ s.Admits ⟨"repl", "secret"⟩ := by
  have ran : (Runs.exec (WorkflowRegistry.step ⟨"repl", "secret"⟩) WorkflowRegistry.stopsHeard {}
      [.start seedSpec, .publish 0 .copy, .stop "split", .start seedSpec, .publish 0 .stopped, .ret 0, .stop "split", .finish 0,
        .start seedSpec, .start seedSpec]).any (fun s => s.workers.length == 2) = true := by decide +kernel
  obtain ⟨s, reached, holds⟩ := Runs.Under.exists_of_exec ran
  exact ⟨s, reached, by simpa using holds, registry_admits_of_heard reached⟩

/-- The runner fails and drops its end of the stop channel; a stop comes before its status says
so and is lost, and the restart is acknowledged by the worker that was told to stop. -/
theorem lost_stop_acknowledged : ∃ s k, Runs.Under (WorkflowRegistry.step ⟨"repl", "secret"⟩) (fun _ _ => true) {} s ∧
    (s.start ⟨"repl", "secret"⟩ seedSpec).1 = .ok () ∧ (s.start ⟨"repl", "secret"⟩ seedSpec).2.workers = [k] ∧
    k.told = true := by
  have ran : (Runs.exec (WorkflowRegistry.step ⟨"repl", "secret"⟩) (fun _ _ => true) {}
      [.start seedSpec, .ret 0, .stop "split"]).any (fun s =>
        (s.start ⟨"repl", "secret"⟩ seedSpec).1.toBool &&
          (s.start ⟨"repl", "secret"⟩ seedSpec).2.workers == [{ spec := seedSpec, stage := .returned, told := true }]) = true := by
    decide +kernel
  obtain ⟨s, reached, holds⟩ := Runs.Under.exists_of_exec ran
  simp only [Bool.and_eq_true, beq_iff_eq] at holds
  refine ⟨s, _, reached, ?_, holds.2, rfl⟩
  cases answer : (s.start ⟨"repl", "secret"⟩ seedSpec).1 with
  | ok _ => rfl
  | error e => simp [answer, Except.toBool] at holds

end PgShard.Agent
