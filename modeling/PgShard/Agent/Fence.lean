import PgShard.Lib.Runs

/-! The write fence of a database: the statements of `fence_writes`, run by any number of calls among the sessions of
clients. -/

namespace PgShard.Fence

/-! ## Sessions -/

/-- A session is listed from before it is admitted. A connected one has the read-only default of its admission and maybe
an open transaction, which may have written. -/
inductive Phase
  | starting
  | connected (readOnly : Bool) (transaction : Option Bool)
  deriving DecidableEq

def Phase.isConnected : Phase → Bool
  | .starting => false
  | .connected _ _ => true

def Phase.readWrite : Phase → Bool
  | .starting => false
  | .connected readOnly _ => !readOnly

def Phase.wrote : Phase → Bool
  | .connected _ (some written) => written
  | _ => false

/-- A client backend. Only sessions with a read-write default write, and the spared ones, those with a `pgshard_`
application name, do not. -/
structure Session where
  pid : Nat
  spared : Bool
  phase : Phase
  conforms : phase.wrote = true → spared = false ∧ phase.readWrite = true

structure Prepared where
  gid : String
  wrote : Bool
  deriving DecidableEq

structure Database where
  name : String
  allowConnections : Bool
  readOnlyDefault : Bool
  sessions : List Session
  prepared : List Prepared

inductive Event
  | quiet
  | committed (pid : Nat) (wrote : Bool)

/-- What a session that is listed does, with what it becomes and the transactions that are prepared then. -/
inductive Session.Acts (db : Database) (s : Session) : Event → Session → List Prepared → Prop
  | admits {t : Session} : s.phase = .starting → db.allowConnections = true →
      t.phase = .connected db.readOnlyDefault none → Acts db s .quiet t db.prepared
  | starts {t : Session} {readOnly : Bool} : s.phase = .connected readOnly none →
      t.phase = .connected readOnly (some false) → Acts db s .quiet t db.prepared
  | writes {t : Session} {readOnly written : Bool} : s.phase = .connected readOnly (some written) →
      t.phase = .connected readOnly (some true) → Acts db s .quiet t db.prepared
  | commits {t : Session} {readOnly written : Bool} : s.phase = .connected readOnly (some written) →
      t.phase = .connected readOnly none → Acts db s (.committed s.pid written) t db.prepared
  | aborts {t : Session} {readOnly written : Bool} : s.phase = .connected readOnly (some written) →
      t.phase = .connected readOnly none → Acts db s .quiet t db.prepared
  | prepares {t : Session} {readOnly written : Bool} {gid : String} : s.spared = false →
      s.phase = .connected readOnly (some written) → (∀ p ∈ db.prepared, p.gid ≠ gid) →
      t.phase = .connected readOnly none → Acts db s .quiet t (⟨gid, written⟩ :: db.prepared)
  | commitsPrepared {p : Prepared} {readOnly : Bool} : s.phase = .connected readOnly none → p ∈ db.prepared →
      Acts db s (.committed s.pid p.wrote) s (db.prepared.filter (· ≠ p))
  | abortsPrepared {p : Prepared} {readOnly : Bool} : s.phase = .connected readOnly none → p ∈ db.prepared →
      Acts db s .quiet s (db.prepared.filter (· ≠ p))

/-- One move of a client. A session that is not admitted, or is admitted to another database, exits. -/
inductive Database.Moves (db : Database) : Event → Database → Prop
  | connect {s : Session} : (∀ t ∈ db.sessions, t.pid ≠ s.pid) → s.phase = .starting →
      Moves db .quiet { db with sessions := s :: db.sessions }
  | act {s t : Session} {event : Event} {prepared : List Prepared} : s ∈ db.sessions → s.Acts db event t prepared →
      t.pid = s.pid → t.spared = s.spared →
      Moves db event { db with sessions := t :: db.sessions.filter (·.pid ≠ s.pid), prepared }
  | exit (pid : Nat) : Moves db .quiet { db with sessions := db.sessions.filter (·.pid ≠ pid) }

/-! ## Statements -/

/-- The client backends that `drain_writers` looks for; one that is starting has no database yet. -/
def Database.selectWriters (db : Database) (includeStarting : Bool) : List Nat :=
  (db.sessions.filter fun s => !s.spared && (s.phase.isConnected || includeStarting)).map (·.pid)

/-- How many of the backends `pg_terminate_backend` has signalled. They exit when they get to it. -/
def Database.signalled (db : Database) (pids : List Nat) : Nat :=
  pids.countP fun pid => db.sessions.any (·.pid == pid)

def Database.close (db : Database) : Database :=
  { db with allowConnections := false }

def Database.reopen (db : Database) (readOnly : Bool) : Database :=
  { db with readOnlyDefault := readOnly, allowConnections := true }

def Database.ensureNoPrepared (db : Database) : Except String Unit :=
  if db.prepared.length = 0 then .ok ()
  else .error ("database " ++ db.name ++ " has " ++ toString db.prepared.length ++
    " prepared transaction(s); a 2PC write could commit after the barrier. Disable prepared transactions on shard databases.")

/-- The next statement of a call; `fencing` is its `read_only`. -/
inductive Stage
  | unfence
  | close
  | check
  | select (fencing : Bool) (terminated : Nat)
  | terminate (fencing : Bool) (pids : List Nat) (terminated : Nat)
  | recheck (terminated : Nat)
  | reopen (terminated : Nat)
  | returned (result : Except String Nat)

def fenceWrites (readOnly : Bool) : Stage :=
  if readOnly then .close else .unfence

/-- One statement of a call. `expired` is what the clock of the drain has to say. -/
def Stage.run (db : Database) (expired : Bool) : Stage → Database × Stage
  | .unfence => (db.reopen false, .select false 0)
  | .close => (db.close, .check)
  | .check =>
    match db.ensureNoPrepared with
    | .error e => (db, .returned (.error e))
    | .ok () => (db, .select true 0)
  | .select fencing terminated =>
    let pids := db.selectWriters fencing
    if pids.isEmpty then (db, if fencing then .recheck terminated else .returned (.ok 0))
    else if expired then
      (db, .returned (.error ("writer backends on " ++ db.name ++ " did not exit within the fence deadline")))
    else (db, .terminate fencing pids terminated)
  | .terminate fencing pids terminated =>
    (db, .select fencing (min (terminated + db.signalled pids) (2 ^ 32 - 1)))
  | .recheck terminated =>
    match db.ensureNoPrepared with
    | .error e => (db, .returned (.error e))
    | .ok () => (db, .reopen terminated)
  | .reopen terminated => (db.reopen true, .returned (.ok terminated))
  | .returned result => (db, .returned result)

def Stage.isReturned : Stage → Bool
  | .returned _ => true
  | _ => false

/-! ## Runs -/

structure World where
  db : Database
  calls : Nat → Option Stage

inductive Action
  | request (call : Nat) (readOnly : Bool)
  | statement (call : Nat)
  | client (event : Event)

def World.goesOn (w : World) (db : Database) (call : Nat) (stage : Stage) : World :=
  ⟨db, Function.update w.calls call (some stage)⟩

/-- A statement succeeds, or fails before or after it has run. -/
inductive World.Step (w : World) : Action → World → Prop
  | request {call : Nat} (readOnly : Bool) : w.calls call = none →
      Step w (.request call readOnly) (w.goesOn w.db call (fenceWrites readOnly))
  | statement {call : Nat} {stage : Stage} (expired : Bool) : w.calls call = some stage → stage.isReturned = false →
      Step w (.statement call) (w.goesOn (stage.run w.db expired).1 call (stage.run w.db expired).2)
  | answerLost {call : Nat} {stage : Stage} (expired : Bool) (e : String) : w.calls call = some stage →
      stage.isReturned = false →
      Step w (.statement call) (w.goesOn (stage.run w.db expired).1 call (.returned (.error e)))
  | fails {call : Nat} {stage : Stage} (e : String) : w.calls call = some stage → stage.isReturned = false →
      Step w (.statement call) (w.goesOn w.db call (.returned (.error e)))
  | client {event : Event} {db : Database} : w.db.Moves event db → Step w (.client event) { w with db }

/-- The worlds that runs from `w` without the request of an un-fence come to. -/
def World.Fencing (w : World) : World → Prop :=
  Runs.Reachable (· = w) fun u v => ∃ action, (∀ k, action ≠ .request k false) ∧ u.Step action v

/-! ## What a fence secures -/

def Database.Shut (db : Database) : Prop :=
  db.allowConnections = false ∨ db.readOnlyDefault = true

def Database.NoWriters (db : Database) : Prop :=
  ∀ s ∈ db.sessions, s.spared = true ∨ s.phase.readWrite = false

def Database.NothingPrepared (db : Database) : Prop :=
  ∀ p ∈ db.prepared, p.wrote = false

/-- What holds when a fence has got to the stage. -/
def Database.Secured (db : Database) : Stage → Prop
  | .close | .returned (.error _) => True
  | .check | .select true _ | .terminate true _ _ => db.Shut
  | .recheck _ => db.Shut ∧ db.NoWriters
  | .reopen _ | .returned (.ok _) => db.Shut ∧ db.NoWriters ∧ db.NothingPrepared
  | .unfence | .select false _ | .terminate false _ _ => False

/-- The change gives nothing away that a fence has secured. -/
structure Database.Keeps (db db' : Database) : Prop where
  shut : db.Shut → db'.Shut
  noWriters : db.Shut → db.NoWriters → db'.NoWriters
  nothingPrepared : db.NoWriters → db.NothingPrepared → db'.NothingPrepared

variable {db db' : Database} {event : Event} {stage : Stage} {s t : Session} {prepared : List Prepared}
  {w u v : World} {action : Action} {call : Nat}

theorem Database.Keeps.secured (keeps : db.Keeps db') (secured : db.Secured stage) : db'.Secured stage := by
  unfold Database.Secured at *
  split at secured
  · trivial
  · trivial
  · exact keeps.shut secured
  · exact keeps.shut secured
  · exact keeps.shut secured
  · exact ⟨keeps.shut secured.1, keeps.noWriters secured.1 secured.2⟩
  · exact ⟨keeps.shut secured.1, keeps.noWriters secured.1 secured.2.1,
      keeps.nothingPrepared secured.2.1 secured.2.2⟩
  · exact ⟨keeps.shut secured.1, keeps.noWriters secured.1 secured.2.1,
      keeps.nothingPrepared secured.2.1 secured.2.2⟩
  · exact secured
  · exact secured
  · exact secured

theorem Session.wrote_false (kept : s.spared = true ∨ s.phase.readWrite = false) : s.phase.wrote = false := by
  by_contra wrote
  obtain ⟨unspared, readWrite⟩ := s.conforms (Bool.not_eq_false _ ▸ wrote)
  rcases kept with spared | readOnly
  · cases spared.symm.trans unspared
  · cases readOnly.symm.trans readWrite

theorem Session.Acts.readWrite_false (acts : s.Acts db event t prepared) (shut : db.Shut)
    (readOnly : s.phase.readWrite = false) : t.phase.readWrite = false := by
  cases acts with
  | admits starting opened admitted =>
    rw [admitted]
    rcases shut with closed | default
    · cases closed.symm.trans opened
    · simp [Phase.readWrite, default]
  | commitsPrepared | abortsPrepared => exact readOnly
  | starts before after | writes before after | commits before after | aborts before after | prepares _ before _ after =>
    rw [before] at readOnly
    rw [after]
    exact readOnly

theorem Session.Acts.nothingPrepared (acts : s.Acts db event t prepared)
    (kept : s.spared = true ∨ s.phase.readWrite = false) (nothing : db.NothingPrepared) :
    ∀ p ∈ prepared, p.wrote = false := by
  cases acts with
  | prepares unspared before new after =>
    have unwritten := Session.wrote_false kept
    rw [before] at unwritten
    exact List.forall_mem_cons.mpr ⟨unwritten, nothing⟩
  | commitsPrepared | abortsPrepared => exact fun p member => nothing p (List.mem_of_mem_filter member)
  | admits | starts | writes | commits | aborts => exact nothing

theorem Database.Moves.keeps (moves : db.Moves event db') : db.Keeps db' := by
  cases moves with
  | connect fresh starting =>
    refine ⟨id, fun _ none => List.forall_mem_cons.mpr ⟨.inr ?_, none⟩, fun _ nothing => nothing⟩
    rw [starting]
    rfl
  | act member acts pid spared =>
    refine ⟨id, fun shut none => List.forall_mem_cons.mpr ⟨?_, fun s kept => none s (List.mem_of_mem_filter kept)⟩,
      fun none nothing => acts.nothingPrepared (none _ member) nothing⟩
    rw [spared]
    exact (none _ member).imp_right (acts.readWrite_false shut)
  | exit pid => exact ⟨id, fun _ none s kept => none s (List.mem_of_mem_filter kept), fun _ nothing => nothing⟩

theorem ensureNoPrepared_ok (passed : db.ensureNoPrepared = .ok ()) : db.NothingPrepared := by
  unfold Database.ensureNoPrepared at passed
  split_ifs at passed with empty
  rw [Database.NothingPrepared, List.length_eq_zero_iff.mp empty]
  exact fun _ member => absurd member List.not_mem_nil

theorem Stage.run_keeps (expired : Bool) (fences : stage ≠ .unfence) : db.Keeps (stage.run db expired).1 := by
  have same : db.Keeps db := ⟨id, fun _ => id, fun _ => id⟩
  cases stage with
  | unfence => exact absurd rfl fences
  | close => exact ⟨fun _ => .inl rfl, fun _ => id, fun _ => id⟩
  | reopen terminated => exact ⟨fun _ => .inr rfl, fun _ => id, fun _ => id⟩
  | terminate | returned => exact same
  | check | recheck =>
    simp only [Stage.run]
    split <;> exact same
  | select =>
    simp only [Stage.run]
    split_ifs <;> exact same

theorem Stage.run_ne_unfence (expired : Bool) (stage : Stage) (pending : stage.isReturned = false) :
    (stage.run db expired).2 ≠ .unfence := by
  cases stage with
  | unfence | close | reopen | terminate => simp [Stage.run]
  | returned => cases pending
  | check | recheck =>
    simp only [Stage.run]
    split <;> simp
  | select =>
    simp only [Stage.run]
    split_ifs <;> simp

theorem selectWriters_empty (none : (db.selectWriters true).isEmpty = true) : db.NoWriters := by
  intro s member
  rw [List.isEmpty_iff, Database.selectWriters, List.map_eq_nil_iff, List.filter_eq_nil_iff] at none
  have spared := none s member
  simp only [Bool.or_true, Bool.and_true, Bool.not_eq_true', Bool.not_eq_false] at spared
  exact .inl spared

theorem Stage.run_secured (expired : Bool) (secured : db.Secured stage) :
    (stage.run db expired).1.Secured (stage.run db expired).2 := by
  cases stage with
  | unfence => exact secured.elim
  | close => exact .inl rfl
  | check =>
    simp only [Stage.run]
    split
    · trivial
    · exact secured
  | select fencing terminated =>
    cases fencing with
    | false => exact secured.elim
    | true =>
      simp only [Stage.run]
      split_ifs with none
      · exact ⟨secured, selectWriters_empty none⟩
      · trivial
      · exact secured
  | terminate fencing pids terminated =>
    cases fencing with
    | false => exact secured.elim
    | true => exact secured
  | recheck terminated =>
    simp only [Stage.run]
    split
    · trivial
    · rename_i passed
      exact ⟨secured.1, secured.2, ensureNoPrepared_ok passed⟩
  | reopen terminated => exact ⟨.inr rfl, secured.2⟩
  | returned result => exact secured

/-! ## The theorem -/

/-- No un-fence is about to run, and the call has secured what its stage needs. -/
structure World.Holds (w : World) (call : Nat) : Prop where
  fencing : ∀ k, w.calls k ≠ some .unfence
  secured : ∃ stage, w.calls call = some stage ∧ w.db.Secured stage

theorem World.Holds.goesOn (holds : w.Holds call) {k : Nat} {stage next : Stage} {db : Database}
    (at_ : w.calls k = some stage) (keeps : w.db.Keeps db) (fences : next ≠ .unfence)
    (own : k = call → w.db.Secured stage → db.Secured next) : (w.goesOn db k next).Holds call := by
  obtain ⟨fencing, stage', here, secured⟩ := holds
  constructor
  · intro j
    by_cases same : j = k
    · simp [World.goesOn, same, fences]
    · simpa [World.goesOn, same] using fencing j
  · by_cases same : call = k
    · subst same
      refine ⟨next, by simp [World.goesOn], own rfl ?_⟩
      cases at_.symm.trans here
      exact secured
    · exact ⟨stage', by simpa [World.goesOn, same] using here, keeps.secured secured⟩

theorem World.Holds.step (holds : w.Holds call) (step : w.Step action u) (fences : ∀ k, action ≠ .request k false) :
    u.Holds call := by
  cases step with
  | @request k readOnly idle =>
    obtain ⟨fencing, stage, here, secured⟩ := holds
    have other : call ≠ k := by
      rintro rfl
      cases idle.symm.trans here
    cases readOnly with
    | false => exact absurd rfl (fences k)
    | true =>
      refine ⟨fun j => ?_, stage, by simpa [World.goesOn, other] using here, secured⟩
      by_cases same : j = k
      · simp [World.goesOn, same, fenceWrites]
      · simpa [World.goesOn, same] using fencing j
  | @statement k stage expired here pending =>
    have known : stage ≠ .unfence := fun unfence => holds.fencing k (unfence ▸ here)
    exact holds.goesOn here (stage.run_keeps expired known) (stage.run_ne_unfence expired pending)
      fun _ secured => stage.run_secured expired secured
  | @answerLost k stage expired e here pending =>
    have known : stage ≠ .unfence := fun unfence => holds.fencing k (unfence ▸ here)
    exact holds.goesOn here (stage.run_keeps expired known) (by simp) fun _ _ => trivial
  | @fails k stage e here pending =>
    exact holds.goesOn here ⟨id, fun _ => id, fun _ => id⟩ (by simp) fun _ _ => trivial
  | client moves =>
    obtain ⟨fencing, stage, here, secured⟩ := holds
    exact ⟨fencing, stage, here, moves.keeps.secured secured⟩

theorem World.Fencing.step (action : Action) (fencing : w.Fencing u) (fences : ∀ k, action ≠ .request k false)
    {v : World} (step : u.Step action v) : w.Fencing v :=
  .next fencing ⟨action, fences, step⟩

theorem World.Holds.kept (holds : w.Holds call) (fencing : w.Fencing u) : u.Holds call := by
  induction fencing with
  | start initial => exact initial ▸ holds
  | next _ stepped ih =>
    obtain ⟨action, fences, step⟩ := stepped
    exact ih.step step fences

theorem World.Step.returned {result : Except String Nat} (step : w.Step action u)
    (done : w.calls call = some (.returned result)) : u.calls call = some (.returned result) := by
  have other : ∀ {k : Nat} {stage : Stage}, w.calls k = some stage → stage.isReturned = false → call ≠ k := by
    rintro k stage here pending rfl
    cases done.symm.trans here
    cases pending
  cases step with
  | @request k readOnly idle =>
    have apart : call ≠ k := by
      rintro rfl
      cases idle.symm.trans done
    simpa [World.goesOn, apart] using done
  | statement expired here pending | answerLost expired e here pending | fails e here pending =>
    simpa [World.goesOn, other here pending] using done
  | client moves => exact done

theorem World.Fencing.returned {result : Except String Nat} (fencing : w.Fencing u)
    (done : w.calls call = some (.returned result)) : u.calls call = some (.returned result) := by
  induction fencing with
  | start initial => exact initial ▸ done
  | next _ stepped ih =>
    obtain ⟨action, -, step⟩ := stepped
    exact step.returned ih

theorem World.Holds.unwritten {terminated pid : Nat} {wrote : Bool} (holds : w.Holds call)
    (done : w.calls call = some (.returned (.ok terminated))) (commit : w.Step (.client (.committed pid wrote)) u) :
    wrote = false := by
  obtain ⟨_, stage, here, secured⟩ := holds
  cases done.symm.trans here
  obtain ⟨_, noWriters, nothing⟩ := secured
  cases commit with
  | client moves =>
    cases moves with
    | act member acts pid spared =>
      cases acts with
      | commits before after =>
        have unwritten := Session.wrote_false (noWriters _ member)
        rw [before] at unwritten
        exact unwritten
      | commitsPrepared before listed => exact nothing _ listed

/-- Once a call that fences has returned success, in any run with other calls that fence and with any sessions, no
transaction that has written commits until an un-fence is requested. The run may start anywhere, with other calls at any
stage, as long as no un-fence is about to run. -/
theorem fence_complete (start asked fenced last next : World) (call terminated pid : Nat) (wrote : Bool)
    (settled : ∀ k, start.calls k ≠ some .unfence) (request : start.Step (.request call true) asked)
    (fencing : asked.Fencing fenced) (returned : fenced.calls call = some (.returned (.ok terminated)))
    (later : fenced.Fencing last) (commit : last.Step (.client (.committed pid wrote)) next) : wrote = false := by
  cases request with
  | request _ idle =>
    have requested : (start.goesOn start.db call (fenceWrites true)).Holds call := by
      refine ⟨fun k => ?_, .close, by simp [World.goesOn, fenceWrites], trivial⟩
      by_cases same : k = call
      · simp [World.goesOn, same, fenceWrites]
      · simpa [World.goesOn, same] using settled k
    exact ((requested.kept fencing).kept later).unwritten (later.returned returned) commit

def writing : Session :=
  ⟨1, false, .connected false (some true), fun _ => ⟨rfl, rfl⟩⟩

def newcomer (phase : Phase) (unwritten : phase.wrote = false) : Session :=
  ⟨2, false, phase, fun wrote => absurd (unwritten.symm.trans wrote) Bool.false_ne_true⟩

def unfenced : World :=
  ⟨⟨"main", true, false, [writing], []⟩, fun _ => none⟩

/-- Two calls close the admissions. The first waits for the writer to go and returns; a session that is admitted then
commits what it has read. -/
theorem fence_complete_writer : ∃ asked fenced last, unfenced.Step (.request 0 true) asked ∧ asked.Fencing fenced ∧
    fenced.calls 0 = some (.returned (.ok 1)) ∧ fenced.Fencing last ∧
    (∃ next, last.Step (.client (.committed 2 false)) next) ∧
    ∀ next pid wrote, last.Step (.client (.committed pid wrote)) next → wrote = false := by
  have request : unfenced.Step (.request 0 true) _ := .request true rfl
  have asked : World.Fencing (unfenced.goesOn unfenced.db 0 (fenceWrites true)) _ := Runs.Reachable.start rfl
  obtain ⟨⟨db, calls⟩, fencing, rfl, returned⟩ : ∃ fenced : World, World.Fencing _ fenced ∧
      ⟨"main", true, true, [], []⟩ = fenced.db ∧ fenced.calls 0 = some (.returned (.ok 1)) := by
    have run := asked |>.step (.request 1 true) (by simp) (.request true rfl)
      |>.step (.statement 0) nofun (.statement false rfl rfl) |>.step (.statement 1) nofun (.statement false rfl rfl)
      |>.step (.statement 0) nofun (.statement false rfl rfl) |>.step (.statement 0) nofun (.statement false rfl rfl)
      |>.step (.statement 0) nofun (.statement false rfl rfl) |>.step (.client .quiet) nofun (.client (.exit 1))
      |>.step (.statement 0) nofun (.statement false rfl rfl) |>.step (.statement 0) nofun (.statement false rfl rfl)
      |>.step (.statement 0) nofun (.statement false rfl rfl)
    exact ⟨_, run, rfl, rfl⟩
  have fenced : World.Fencing ⟨⟨"main", true, true, [], []⟩, calls⟩ _ := Runs.Reachable.start rfl
  have later := fenced
    |>.step (.client .quiet) nofun (.client (.connect (s := newcomer .starting rfl) (fun _ member =>
      absurd member List.not_mem_nil) rfl))
    |>.step (.client .quiet) nofun (.client (.act (t := newcomer (.connected true none) rfl) List.mem_cons_self
      (.admits rfl rfl rfl) rfl rfl))
    |>.step (.client .quiet) nofun (.client (.act (t := newcomer (.connected true (some false)) rfl) List.mem_cons_self
      (.starts rfl rfl) rfl rfl))
  refine ⟨_, _, _, request, fencing, returned, later, ⟨_, .client (.act (t := newcomer (.connected true none) rfl)
    List.mem_cons_self (.commits rfl rfl) rfl rfl)⟩, fun next pid wrote commit => ?_⟩
  exact fence_complete unfenced _ _ _ next 0 1 pid wrote (by simp [unfenced]) request fencing returned later commit

end PgShard.Fence
