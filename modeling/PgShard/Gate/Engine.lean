import PgShard.Core.Keyspace
import PgShard.Lib.Runs
import PgShard.Lib.Sweep

/-! The router's gate engine: statements parked behind a closed gate, and their release. -/

namespace PgShard.Gate

inductive GateMode
  | writesOnly
  | all
  deriving DecidableEq

structure StatementScope where
  tables : List String
  keyspaceIds : List KeyspaceId
  isWrite : Bool
  deriving DecidableEq

structure GateMatch where
  all : Bool := false
  tables : List String := []
  keyRanges : List KeyRange := []
  deriving DecidableEq

def GateMatch.matches (m : GateMatch) (scope : StatementScope) : Bool :=
  m.all || scope.tables.any (fun t => m.tables.any (· == t)) ||
    scope.keyspaceIds.any (fun id => m.keyRanges.any (·.contains id))

structure GateSpec where
  id : String
  mode : GateMode
  matcher : GateMatch
  deadline : Nat
  minTopologyGeneration : Nat
  deriving DecidableEq

inductive Release
  | replan (topologyGeneration : Nat)
  | expired
  | rejected
  deriving DecidableEq

structure GateLimits where
  maxSessions : Nat := 5000
  maxTotalSessions : Nat := 50000
  maxWait : Nat := 20
  deriving DecidableEq

structure Parked where
  session : Nat
  enqueued : Nat
  /-- The client has disconnected, and nothing is received any more. -/
  closed : Bool := false
  deriving DecidableEq

structure GateState where
  spec : GateSpec
  parked : List Parked
  openRequested : Bool
  deriving DecidableEq

def GateState.pruneDead (g : GateState) : GateState :=
  { g with parked := g.parked.filter (!·.closed) }

/-- A session's release, with the specification its gate had. -/
structure Sent where
  session : Nat
  release : Release
  spec : GateSpec
  deriving DecidableEq

def GateState.send (g : GateState) (release : Release) (sessions : List Parked) : List Sent :=
  (sessions.filter (!·.closed)).map fun p => ⟨p.session, release, g.spec⟩

structure EngineState where
  gates : List GateState := []
  appliedGeneration : Nat := 0
  deriving DecidableEq

inductive Admission
  | proceed
  | park
  | reject
  deriving DecidableEq

namespace EngineState

def totalParked (s : EngineState) : Nat :=
  (s.gates.map (·.parked.length)).sum

def drain (s : EngineState) (due : GateState → Bool) (release : GateState → Release) : EngineState × List Sent :=
  let swept := Sweep.sweepAll due s.gates
  ({ s with gates := swept.1 }, swept.2.flatMap fun g => g.send (release g) g.parked)

def drainGate (s : EngineState) (idx : Nat) (release : Release) : EngineState × List Sent :=
  match s.gates[idx]? with
  | none => (s, [])
  | some g => ({ s with gates := Sweep.swapRemove s.gates idx }, g.send release g.parked)

/-- The release of `open_gate`: the deadline is authoritative. -/
def openRelease (applied now : Nat) (g : GateState) : Release :=
  if g.spec.deadline ≤ now then .expired else .replan applied

def topologyApplied (s : EngineState) (generation now : Nat) : EngineState × List Sent :=
  let applied := if generation > s.appliedGeneration then generation else s.appliedGeneration
  { s with appliedGeneration := applied }.drain
    (fun g => g.openRequested && g.spec.minTopologyGeneration ≤ applied) (openRelease applied now)

def position (s : EngineState) (id : String) : Option Nat :=
  s.gates.findIdx? (·.spec.id == id)

/-- A gate that is closed again keeps its sessions and a pending open. -/
def close (s : EngineState) (spec : GateSpec) : EngineState :=
  match s.position spec.id with
  | some idx => { s with gates := s.gates.modify idx fun g => { g with spec } }
  | none => { s with gates := s.gates ++ [⟨spec, [], false⟩] }

def «open» (s : EngineState) (gateId : String) (now : Nat) : EngineState × List Sent :=
  match s.position gateId with
  | none => (s, [])
  | some idx =>
    match s.gates[idx]? with
    | none => (s, [])
    | some g =>
      if g.spec.deadline ≤ now then s.drainGate idx .expired
      else if g.spec.minTopologyGeneration > s.appliedGeneration then
        ({ s with gates := s.gates.modify idx fun g => { g with openRequested := true } }, [])
      else s.drainGate idx (.replan s.appliedGeneration)

/-- With the number of gates that have expired. -/
def expireDue (s : EngineState) (now : Nat) : EngineState × List Sent × Nat :=
  let call := s.drain (fun g => g.spec.deadline ≤ now) fun _ => .expired
  (call.1, call.2, s.gates.length - call.1.gates.length)

def check (limits : GateLimits) (s : EngineState) (scope : StatementScope) (session now : Nat) :
    EngineState × List Sent × Admission :=
  match s.gates.findIdx? fun g => (g.spec.mode == .all || scope.isWrite) && g.spec.matcher.matches scope with
  | none => (s, [], .proceed)
  | some idx =>
    let s := { s with gates := s.gates.map GateState.pruneDead }
    match s.gates[idx]? with
    | none => (s, [], .proceed)
    | some g =>
      if s.totalParked ≥ limits.maxTotalSessions || g.parked.length ≥ limits.maxSessions then
        (s, [⟨session, .rejected, g.spec⟩], .reject)
      else
        ({ s with gates := s.gates.modify idx fun g => { g with parked := g.parked ++ [⟨session, now, false⟩] } },
          [], .park)

def overdue (limits : GateLimits) (now : Nat) (p : Parked) : Bool :=
  now - p.enqueued > limits.maxWait

/-- The sessions at the front of each queue that have waited too long, with their number. -/
def rejectOverdueSessions (limits : GateLimits) (s : EngineState) (now : Nat) : EngineState × List Sent × Nat :=
  let gates := s.gates.map GateState.pruneDead
  let sent := gates.flatMap fun g => g.send .rejected (g.parked.takeWhile (overdue limits now))
  ({ s with gates := gates.map fun g => { g with parked := g.parked.dropWhile (overdue limits now) } },
    sent, sent.length)

def status (s : EngineState) : List (String × Nat) :=
  s.gates.map fun g => (g.spec.id, g.parked.length)

def disconnect (s : EngineState) (session : Nat) : EngineState :=
  { s with gates := s.gates.map fun g =>
      { g with parked := g.parked.map fun p => if p.session == session then { p with closed := true } else p } }

end EngineState

/-! ## Runs -/

inductive GateEvent
  | close (spec : GateSpec)
  | «open» (gateId : String)
  | topologyApplied (generation : Nat)
  | expireDue (now : Nat)
  | rejectOverdueSessions (now : Nat)
  | check (scope : StatementScope)
  | disconnect (session : Nat)
  /-- Time passes. -/
  | tick (seconds : Nat)
  deriving DecidableEq

/-- A release, with the generations that had been applied and the time it was sent. -/
structure Released extends Sent where
  generations : List Nat
  time : Nat
  deriving DecidableEq

/-- The engine in its process: the clock, the generations the router has applied so far,
and the releases so far. -/
structure GateEngine where
  state : EngineState := {}
  clock : Nat := 0
  sessions : Nat := 0
  generations : List Nat := []
  released : List Released := []
  deriving DecidableEq

namespace GateEngine

def after (e : GateEngine) (state : EngineState) (sent : List Sent) : GateEngine :=
  { e with state, released := e.released ++ sent.map fun r => ⟨r, e.generations, e.clock⟩ }

def step (limits : GateLimits) (e : GateEngine) : GateEvent → Option GateEngine
  | .close spec => some (e.after (e.state.close spec) [])
  | .«open» gateId =>
    let call := e.state.«open» gateId e.clock
    some (e.after call.1 call.2)
  | .topologyApplied generation =>
    let call := e.state.topologyApplied generation e.clock
    some ({ e with generations := generation :: e.generations }.after call.1 call.2)
  | .expireDue now =>
    let call := e.state.expireDue now
    some (e.after call.1 call.2.1)
  | .rejectOverdueSessions now =>
    let call := e.state.rejectOverdueSessions limits now
    some (e.after call.1 call.2.1)
  | .check scope =>
    let call := e.state.check limits scope e.sessions e.clock
    some { e.after call.1 call.2.1 with sessions := e.sessions + 1 }
  | .disconnect session => some (e.after (e.state.disconnect session) [])
  | .tick seconds => some { e with clock := e.clock + seconds }

end GateEngine

/-! ## Replans -/

variable {generation session : Nat} {gateId : String} {f : GateState → GateState}

section Replans

variable {limits : GateLimits} {s : EngineState} {g : GateState} {r : Sent} {release : Release}
  {sessions : List Parked} {idx now : Nat} {e t : GateEngine}

/-- A replan is onto the generation that is applied, which the gate asks for at least,
before the gate's deadline. -/
def Sent.Switched (r : Sent) (applied now : Nat) : Prop :=
  ∀ generation, r.release = .replan generation →
    generation = applied ∧ r.spec.minTopologyGeneration ≤ generation ∧ now < r.spec.deadline

theorem GateState.mem_send (member : r ∈ g.send release sessions) : r.release = release ∧ r.spec = g.spec := by
  obtain ⟨p, _, rfl⟩ := List.mem_map.mp member
  exact ⟨rfl, rfl⟩

theorem Sent.Switched.of_ne {applied : Nat} (other : ∀ generation, r.release ≠ .replan generation) :
    r.Switched applied now :=
  fun generation replans => absurd replans (other generation)

/-- The call opens no gate and leaves the specification of each gate that stays. -/
structure EngineState.Keeps (s t : EngineState) : Prop where
  applied : t.appliedGeneration = s.appliedGeneration
  gates : ∀ g ∈ t.gates, ∃ h ∈ s.gates, g.spec = h.spec ∧ g.openRequested = h.openRequested

namespace EngineState

theorem mem_drain {due : GateState → Bool} {release : GateState → Release} (member : r ∈ (s.drain due release).2) :
    ∃ g, due g = true ∧ r.release = release g ∧ r.spec = g.spec := by
  obtain ⟨g, swept, sent⟩ := List.mem_flatMap.mp member
  exact ⟨g, Sweep.sweepAll_due swept, GateState.mem_send sent⟩

theorem mem_drainGate (member : r ∈ (s.drainGate idx release).2) :
    ∃ g, s.gates[idx]? = some g ∧ r.release = release ∧ r.spec = g.spec := by
  unfold drainGate at member
  split at member
  · cases member
  · exact ⟨_, ‹_›, GateState.mem_send member⟩

theorem openRelease_switched {applied : Nat} (landed : g.spec.minTopologyGeneration ≤ applied)
    (released : r.release = openRelease applied now g) (held : r.spec = g.spec) : r.Switched applied now := by
  intro generation replans
  rw [released, openRelease] at replans
  split_ifs at replans with passed
  cases replans
  rw [held]
  exact ⟨rfl, landed, not_le.mp passed⟩

theorem topologyApplied_switched (member : r ∈ (s.topologyApplied generation now).2) :
    r.Switched (s.topologyApplied generation now).1.appliedGeneration now := by
  obtain ⟨g, due, released, held⟩ := mem_drain member
  simp only [Bool.and_eq_true, decide_eq_true_eq] at due
  exact openRelease_switched due.2 released held

theorem open_switched (member : r ∈ (s.«open» gateId now).2) :
    r.Switched s.appliedGeneration now := by
  unfold «open» at member
  split at member
  · cases member
  split at member
  · cases member
  rename_i idx _ _ g found
  split_ifs at member with passed waits
  · obtain ⟨_, _, released, _⟩ := mem_drainGate member
    exact Sent.Switched.of_ne (by simp [released])
  · cases member
  · obtain ⟨h, same, released, held⟩ := mem_drainGate member
    cases found.symm.trans same
    intro generation replans
    cases released.symm.trans replans
    rw [held]
    exact ⟨rfl, not_lt.mp waits, not_le.mp passed⟩

theorem expireDue_release {now : Nat} (member : r ∈ (s.expireDue now).2.1) : r.release = .expired := by
  obtain ⟨_, _, released, _⟩ := mem_drain member
  exact released

theorem rejectOverdueSessions_release (member : r ∈ (s.rejectOverdueSessions limits now).2.1) :
    r.release = .rejected := by
  obtain ⟨_, _, sent⟩ := List.mem_flatMap.mp member
  exact (GateState.mem_send sent).1

theorem check_release {scope : StatementScope} (member : r ∈ (s.check limits scope session now).2.1) :
    r.release = .rejected := by
  unfold check at member
  split at member
  · cases member
  dsimp only at member
  split at member
  · cases member
  split_ifs at member
  · rw [List.mem_singleton.mp member]
  · cases member

theorem mem_modify (member : g ∈ s.gates.modify idx f) :
    g ∈ s.gates ∨ ∃ h, s.gates[idx]? = some h ∧ g = f h := by
  obtain ⟨i, found⟩ := List.mem_iff_getElem?.mp member
  rw [List.getElem?_modify] at found
  obtain ⟨h, before, same⟩ := Option.map_eq_some_iff.mp found
  split_ifs at same with here
  · exact .inr ⟨h, here ▸ before, same.symm⟩
  · exact .inl (same ▸ List.mem_of_getElem? before)

namespace Keeps

theorem refl (s : EngineState) : s.Keeps s :=
  ⟨rfl, fun g member => ⟨g, member, rfl, rfl⟩⟩

theorem trans {t u : EngineState} (first : s.Keeps t) (second : t.Keeps u) : s.Keeps u := by
  refine ⟨second.applied.trans first.applied, fun g member => ?_⟩
  obtain ⟨h, between, spec, requested⟩ := second.gates g member
  obtain ⟨k, before, spec', requested'⟩ := first.gates h between
  exact ⟨k, before, spec.trans spec', requested.trans requested'⟩

theorem map (same : ∀ g, (f g).spec = g.spec ∧ (f g).openRequested = g.openRequested) :
    s.Keeps { s with gates := s.gates.map f } := by
  refine ⟨rfl, fun g member => ?_⟩
  obtain ⟨h, before, rfl⟩ := List.mem_map.mp member
  exact ⟨h, before, same h⟩

theorem modify (same : ∀ g, (f g).spec = g.spec ∧ (f g).openRequested = g.openRequested) :
    s.Keeps { s with gates := s.gates.modify idx f } := by
  refine ⟨rfl, fun g member => ?_⟩
  rcases mem_modify member with old | ⟨h, found, rfl⟩
  · exact ⟨g, old, rfl, rfl⟩
  · exact ⟨h, List.mem_of_getElem? found, same h⟩

theorem drain {due : GateState → Bool} {release : GateState → Release} : s.Keeps (s.drain due release).1 :=
  ⟨rfl, fun g member => ⟨g, Sweep.sweepAll_perm.subset (List.mem_append_left _ member), rfl, rfl⟩⟩

theorem expireDue : s.Keeps (s.expireDue now).1 :=
  @Keeps.drain s _ fun _ => .expired

theorem drainGate : s.Keeps (s.drainGate idx release).1 := by
  unfold EngineState.drainGate
  split
  · exact .refl s
  · rename_i found
    exact ⟨rfl, fun g member => ⟨g, (Sweep.swapRemove_perm found).subset (List.mem_cons_of_mem _ member), rfl, rfl⟩⟩

theorem rejectOverdueSessions : s.Keeps (s.rejectOverdueSessions limits now).1 := by
  have pruned : s.Keeps { s with gates := s.gates.map GateState.pruneDead } := .map fun _ => ⟨rfl, rfl⟩
  exact pruned.trans (.map fun _ => ⟨rfl, rfl⟩)

theorem check {scope : StatementScope} : s.Keeps (s.check limits scope session now).1 := by
  have pruned : s.Keeps { s with gates := s.gates.map GateState.pruneDead } := .map fun _ => ⟨rfl, rfl⟩
  unfold EngineState.check
  split
  · exact .refl s
  dsimp only
  split
  · exact pruned
  split_ifs
  · exact pruned
  · exact pruned.trans (.modify fun _ => ⟨rfl, rfl⟩)

theorem disconnect : s.Keeps (s.disconnect session) :=
  .map fun _ => ⟨rfl, rfl⟩

end Keeps

theorem close_applied {spec : GateSpec} : (s.close spec).appliedGeneration = s.appliedGeneration := by
  unfold close
  split <;> rfl

theorem open_applied : (s.«open» gateId now).1.appliedGeneration = s.appliedGeneration := by
  unfold «open»
  split
  · rfl
  split
  · rfl
  split_ifs
  · exact Keeps.drainGate.applied
  · rfl
  · exact Keeps.drainGate.applied

theorem topologyApplied_applied :
    (s.topologyApplied generation now).1.appliedGeneration = max generation s.appliedGeneration := by
  simp only [topologyApplied, drain]
  split_ifs <;> omega

end EngineState

def highest (generations : List Nat) : Nat :=
  generations.foldr max 0

/-- The generation of the engine is the highest applied one, and the replans so far were
onto the generation that was the highest when they were sent. -/
structure GateEngine.Sound (e : GateEngine) : Prop where
  applied : e.state.appliedGeneration = highest e.generations
  released : ∀ r ∈ e.released, r.Switched (highest r.generations) r.time

theorem GateEngine.Sound.after {state : EngineState} {sent : List Sent}
    (earlier : ∀ r ∈ e.released, r.Switched (highest r.generations) r.time)
    (applied : state.appliedGeneration = highest e.generations)
    (switched : ∀ r ∈ sent, r.Switched (highest e.generations) e.clock) : (e.after state sent).Sound := by
  refine ⟨applied, fun r member => ?_⟩
  rcases List.mem_append.mp member with old | now
  · exact earlier r old
  · obtain ⟨r, fresh, rfl⟩ := List.mem_map.mp now
    exact switched r fresh

theorem GateEngine.Sound.next {event : GateEvent} (sound : e.Sound) (taken : e.step limits event = some t) :
    t.Sound := by
  cases event with
  | close spec =>
    cases taken
    exact .after sound.released (EngineState.close_applied.trans sound.applied) (by simp)
  | «open» gateId =>
    cases taken
    refine .after sound.released (EngineState.open_applied.trans sound.applied) fun r member => ?_
    rw [← sound.applied]
    exact EngineState.open_switched member
  | topologyApplied generation =>
    cases taken
    have raised : (e.state.topologyApplied generation e.clock).1.appliedGeneration =
        highest (generation :: e.generations) := by
      rw [EngineState.topologyApplied_applied, sound.applied]
      rfl
    refine .after sound.released raised fun r member => ?_
    rw [← raised]
    exact EngineState.topologyApplied_switched member
  | expireDue now =>
    cases taken
    refine .after sound.released (EngineState.Keeps.expireDue.applied.trans sound.applied) fun r member => ?_
    exact .of_ne (by simp [EngineState.expireDue_release member])
  | rejectOverdueSessions now =>
    cases taken
    refine .after sound.released (EngineState.Keeps.rejectOverdueSessions.applied.trans sound.applied) fun r member => ?_
    exact .of_ne (by simp [EngineState.rejectOverdueSessions_release member])
  | check scope =>
    cases taken
    have checked : (e.after (e.state.check limits scope e.sessions e.clock).1
        (e.state.check limits scope e.sessions e.clock).2.1).Sound :=
      .after sound.released (EngineState.Keeps.check.applied.trans sound.applied) fun r member =>
        .of_ne (by simp [EngineState.check_release member])
    exact ⟨checked.applied, checked.released⟩
  | disconnect session =>
    cases taken
    exact .after sound.released (EngineState.Keeps.disconnect.applied.trans sound.applied) (by simp)
  | tick seconds =>
    cases taken
    exact ⟨sound.applied, sound.released⟩

/-- In every run of the engine a session is sent to replan only onto the highest
generation applied so far, which is at least the one its gate asks for at that moment, and
before the gate's deadline. -/
theorem replan_switched (reached : Runs.Under (GateEngine.step limits) (fun _ _ => true) {} e)
    {r : Released} (member : r ∈ e.released) {generation : Nat} (replans : r.release = .replan generation) :
    generation = highest r.generations ∧ r.spec.minTopologyGeneration ≤ generation ∧ r.time < r.spec.deadline := by
  have sound : e.Sound :=
    reached.invariant ⟨rfl, by simp⟩ fun _ _ _ sound _ taken => sound.next taken
  exact sound.released r member generation replans

def moveGate (minTopologyGeneration : Nat) : GateSpec :=
  { id := "move", mode := .writesOnly, matcher := { all := true }, deadline := 60, minTopologyGeneration }

/-- The open comes first and waits; the generation that lands then releases the session. -/
theorem replan_switched_armed : ∃ e r, Runs.Under (GateEngine.step {}) (fun _ _ => true) {} e ∧ r ∈ e.released ∧
    r.release = .replan 7 ∧ 7 = highest r.generations ∧ r.spec.minTopologyGeneration ≤ 7 ∧
    r.time < r.spec.deadline := by
  have ran : (Runs.exec (GateEngine.step {}) (fun _ _ => true) {}
      [.close (moveGate 6), .check ⟨["orders"], [], true⟩, .topologyApplied 5, .«open» "move", .tick 8,
        .topologyApplied 7]).any (fun e => e.released.any (·.release == .replan 7)) = true := by decide +kernel
  obtain ⟨e, reached, holds⟩ := Runs.Under.exists_of_exec ran
  obtain ⟨r, member, isReplan⟩ := List.any_eq_true.mp holds
  have replans := beq_iff_eq.mp isReplan
  exact ⟨e, r, reached, member, replans, replan_switched reached member replans⟩

end Replans

/-! ## Pending opens -/

section PendingOpens

variable {limits : GateLimits} {s t : EngineState} {e : GateEngine}

/-- No pending open waits for a generation that is applied. -/
def EngineState.NoneLanded (s : EngineState) : Prop :=
  ∀ g ∈ s.gates, g.openRequested = true → s.appliedGeneration < g.spec.minTopologyGeneration

instance : Decidable s.NoneLanded :=
  inferInstanceAs (Decidable (∀ g ∈ s.gates, g.openRequested = true → s.appliedGeneration < g.spec.minTopologyGeneration))

/-- A gate with a pending open is closed again only for a generation that is still to
be applied. -/
def GateEngine.closesAhead (e : GateEngine) : GateEvent → Bool
  | .close spec => (e.state.gates.find? (·.spec.id == spec.id)).all fun g =>
      !g.openRequested || e.state.appliedGeneration < spec.minTopologyGeneration
  | _ => true

namespace EngineState

theorem NoneLanded.keeps (waiting : s.NoneLanded) (keeps : s.Keeps t) : t.NoneLanded := by
  intro g member requested
  obtain ⟨h, before, spec, same⟩ := keeps.gates g member
  rw [keeps.applied, spec]
  exact waiting h before (same ▸ requested)

theorem NoneLanded.«open» {now : Nat} (waiting : s.NoneLanded) : (s.«open» gateId now).1.NoneLanded := by
  unfold EngineState.«open»
  split
  · exact waiting
  split
  · exact waiting
  rename_i found
  split_ifs with _ waits
  · exact waiting.keeps .drainGate
  · intro g member requested
    rcases mem_modify member with old | ⟨h, same, rfl⟩
    · exact waiting g old requested
    · cases found.symm.trans same
      exact waits
  · exact waiting.keeps .drainGate

/-- Whatever was pending, the loop of `topology_applied` leaves no open that has landed. -/
theorem topologyApplied_noneLanded {now : Nat} : (s.topologyApplied generation now).1.NoneLanded := by
  intro g member requested
  have stays := Sweep.sweepAll_stays member
  rw [requested, Bool.true_and, decide_eq_false_iff_not] at stays
  exact not_le.mp stays

theorem position_eq_some {id : String} {idx : Nat} (found : s.position id = some idx) :
    ∃ g, s.gates[idx]? = some g ∧ s.gates.find? (·.spec.id == id) = some g := by
  obtain ⟨inside, holds, before⟩ := List.findIdx?_eq_some_iff_getElem.mp found
  refine ⟨s.gates[idx], List.getElem?_eq_getElem inside, List.find?_eq_some_iff_getElem.mpr ?_⟩
  exact ⟨holds, idx, inside, rfl, fun j earlier => by simpa using before j earlier⟩

theorem position_eq_none {id : String} (missing : s.position id = none) :
    s.gates.find? (·.spec.id == id) = none :=
  List.find?_eq_none.mpr fun g member => by simp [List.findIdx?_eq_none_iff.mp missing g member]

theorem close_noneLanded_iff {spec : GateSpec} (waiting : s.NoneLanded) :
    (s.close spec).NoneLanded ↔ ∀ g, s.gates.find? (·.spec.id == spec.id) = some g → g.openRequested = true →
      s.appliedGeneration < spec.minTopologyGeneration := by
  unfold close
  cases placed : s.position spec.id with
  | none =>
    refine iff_of_true (fun g member requested => ?_) fun g found => ?_
    · rcases List.mem_append.mp member with old | new
      · exact waiting g old requested
      · rw [List.mem_singleton.mp new] at requested
        cases requested
    · rw [position_eq_none placed] at found
      cases found
  | some idx =>
    obtain ⟨h, here, first⟩ := position_eq_some placed
    constructor
    · intro landed g found requested
      cases first.symm.trans found
      have replaced : (s.gates.modify idx fun g => { g with spec })[idx]? = some { h with spec } := by
        rw [List.getElem?_modify_eq, here]
        rfl
      exact landed _ (List.mem_of_getElem? replaced) requested
    · intro ahead g member requested
      rcases mem_modify member with old | ⟨k, same, rfl⟩
      · exact waiting g old requested
      · cases here.symm.trans same
        exact ahead h first requested

end EngineState

theorem GateEngine.noneLanded_next_iff {next : GateEngine} {event : GateEvent} (waiting : e.state.NoneLanded)
    (taken : e.step limits event = some next) : next.state.NoneLanded ↔ e.closesAhead event = true := by
  cases event with
  | close spec =>
    cases taken
    have closed := @EngineState.close_noneLanded_iff _ spec waiting
    simpa only [GateEngine.after, GateEngine.closesAhead, Option.all_eq_true, Bool.or_eq_true, Bool.not_eq_true',
      decide_eq_true_eq, ← Bool.not_eq_true, ← imp_iff_not_or] using closed
  | «open» gateId =>
    cases taken
    exact iff_of_true waiting.«open» rfl
  | topologyApplied generation =>
    cases taken
    exact iff_of_true (@EngineState.topologyApplied_noneLanded generation e.state e.clock) rfl
  | expireDue now =>
    cases taken
    exact iff_of_true (waiting.keeps .expireDue) rfl
  | rejectOverdueSessions now =>
    cases taken
    exact iff_of_true (waiting.keeps .rejectOverdueSessions) rfl
  | check scope =>
    cases taken
    exact iff_of_true (waiting.keeps .check) rfl
  | disconnect session =>
    cases taken
    exact iff_of_true (waiting.keeps .disconnect) rfl
  | tick seconds =>
    cases taken
    exact iff_of_true waiting rfl

/-- A run that closes gates with a pending open only ahead of the applied generation
leaves no open pending that has landed; any other next step leaves one. -/
theorem pending_opens_wait (reached : Runs.Under (GateEngine.step limits) GateEngine.closesAhead {} e) :
    e.state.NoneLanded ∧
      ∀ event next, e.step limits event = some next → (next.state.NoneLanded ↔ e.closesAhead event = true) := by
  have waiting : e.state.NoneLanded := by
    induction reached with
    | start => simp [EngineState.NoneLanded]
    | next _ ahead taken ih => exact (GateEngine.noneLanded_next_iff ih taken).mpr ahead
  exact ⟨waiting, fun _ _ taken => GateEngine.noneLanded_next_iff waiting taken⟩

theorem pending_opens_wait_closed_again : ∃ e, Runs.Under (GateEngine.step {}) GateEngine.closesAhead {} e ∧
    (∃ g ∈ e.state.gates, g.openRequested = true) ∧ e.state.NoneLanded := by
  have ran : (Runs.exec (GateEngine.step {}) GateEngine.closesAhead {}
      [.close (moveGate 6), .topologyApplied 5, .«open» "move", .close (moveGate 7), .topologyApplied 6]).any
      (fun e => e.state.gates.any (·.openRequested)) = true := by decide +kernel
  obtain ⟨e, reached, holds⟩ := Runs.Under.exists_of_exec ran
  exact ⟨e, reached, List.any_eq_true.mp holds, (pending_opens_wait reached).1⟩

/-- The gate waits for generation 6 with its open pending, and is closed again for
generation 5, which is applied: the open stays pending. -/
theorem lowered_gate_stays_armed : ∃ e, Runs.Under (GateEngine.step {}) (fun _ _ => true) {} e ∧
    ¬ e.state.NoneLanded := by
  have ran : (Runs.exec (GateEngine.step {}) (fun _ _ => true) {}
      [.close (moveGate 6), .topologyApplied 5, .«open» "move", .close (moveGate 5)]).any
      (fun e => decide (¬ e.state.NoneLanded)) = true := by decide +kernel
  obtain ⟨e, reached, holds⟩ := Runs.Under.exists_of_exec ran
  exact ⟨e, reached, of_decide_eq_true holds⟩

end PendingOpens

end PgShard.Gate
