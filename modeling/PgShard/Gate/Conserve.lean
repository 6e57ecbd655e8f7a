import PgShard.Gate.Engine

/-! The sessions of the gate engine: whoever is handed a receiver waits in one gate until one release is sent. -/

namespace PgShard.Gate

variable {f : GateState → GateState} {due : GateState → Bool}

/-- The engine with the sessions that were handed a receiver by `check`, and those of them whose client has gone. -/
structure Ledger where
  engine : GateEngine := {}
  handed : List Nat := []
  gone : List Nat := []
  deriving DecidableEq

namespace Ledger

/-- A client can disconnect once it has its receiver. -/
def step (limits : GateLimits) (l : Ledger) : GateEvent → Option Ledger
  | .check scope =>
    (l.engine.step limits (.check scope)).map fun engine =>
      match (l.engine.state.check limits scope l.engine.sessions l.engine.clock).2.2 with
      | .proceed => { l with engine }
      | _ => { l with engine, handed := l.engine.sessions :: l.handed }
  | .disconnect session =>
    if session ∈ l.handed then
      (l.engine.step limits (.disconnect session)).map fun engine => { l with engine, gone := session :: l.gone }
    else none
  | event => (l.engine.step limits event).map fun engine => { l with engine }

end Ledger

def EngineState.queue (s : EngineState) : List Parked :=
  s.gates.flatMap (·.parked)

def EngineState.held (s : EngineState) (session : Nat) : Nat :=
  (s.queue.map (·.session)).count session

def sentTo (released : List Released) (session : Nat) : Nat :=
  (released.map (·.session)).count session

def EngineState.opens (s : EngineState) (generation : Nat) (g : GateState) : Bool :=
  g.openRequested && g.spec.minTopologyGeneration ≤ max generation s.appliedGeneration

variable {limits : GateLimits} {s t : EngineState} {g : GateState} {sent : List Sent} {release : Release}
  {idx now session : Nat} {e : GateEngine} {l m : Ledger}

/-! ## What a call takes out of the queues -/

/-- Sessions leave the queues; those that are connected are sent a release. The queues that stay keep their order. -/
structure EngineState.Drains (s t : EngineState) (sent : List Sent) : Prop where
  out : ∃ left : List Parked, (t.queue ++ left).Perm s.queue ∧
    (sent.map (·.session)).Perm ((left.filter (!·.closed)).map (·.session))
  queues : ∀ g ∈ t.gates, g.parked = [] ∨ ∃ h ∈ s.gates, g.parked.Sublist h.parked

namespace EngineState

theorem totalParked_eq (s : EngineState) : s.totalParked = s.queue.length := by
  rw [totalParked, queue, List.length_flatMap]

theorem queue_modify (same : ∀ g, (f g).parked = g.parked) :
    (s.gates.modify idx f).flatMap (·.parked) = s.queue := by
  have parked : (s.gates.modify idx f).map (·.parked) = s.gates.map (·.parked) := by
    apply List.ext_getElem? fun i => ?_
    simp only [List.getElem?_map, List.getElem?_modify]
    cases s.gates[i]? with
    | none => rfl
    | some g =>
      split_ifs
      · exact congrArg some (same g)
      · rfl
  rw [queue, List.flatMap_def, List.flatMap_def, parked]

namespace Drains

theorem refl (s : EngineState) : s.Drains s [] :=
  ⟨⟨[], by simp, by simp⟩, fun g member => .inr ⟨g, member, .refl _⟩⟩

theorem same (queue : t.queue = s.queue) (queues : ∀ g ∈ t.gates, g.parked = [] ∨ ∃ h ∈ s.gates, g.parked = h.parked) :
    s.Drains t [] := by
  refine ⟨⟨[], by simp [queue], by simp⟩, fun g member => ?_⟩
  rcases queues g member with empty | ⟨h, before, same⟩
  · exact .inl empty
  · exact .inr ⟨h, before, same ▸ .refl _⟩

theorem trans {u : EngineState} {later : List Sent} (first : s.Drains t sent) (second : t.Drains u later) :
    s.Drains u (sent ++ later) := by
  obtain ⟨⟨left, first, sentFirst⟩, queues⟩ := first
  obtain ⟨⟨right, second, sentSecond⟩, queues'⟩ := second
  refine ⟨⟨left ++ right, ?_, ?_⟩, fun g member => ?_⟩
  · calc (u.queue ++ (left ++ right)).Perm (u.queue ++ (right ++ left)) := .append_left _ List.perm_append_comm
      _ |>.Perm (u.queue ++ right ++ left) := .of_eq (List.append_assoc ..).symm
      _ |>.Perm (t.queue ++ left) := second.append_right left
      _ |>.Perm s.queue := first
  · rw [List.map_append, List.filter_append, List.map_append]
    exact sentFirst.append sentSecond
  · rcases queues' g member with empty | ⟨h, between, shorter⟩
    · exact .inl empty
    · rcases queues h between with empty | ⟨k, before, shorter'⟩
      · rw [empty] at shorter
        exact .inl (List.sublist_nil.mp shorter)
      · exact .inr ⟨k, before, shorter.trans shorter'⟩

theorem length_le (drains : s.Drains t sent) : t.queue.length ≤ s.queue.length := by
  obtain ⟨⟨left, split, _⟩, _⟩ := drains
  have lengths := split.length_eq
  rw [List.length_append] at lengths
  omega

theorem send_sessions (g : GateState) (release : Release) (sessions : List Parked) :
    (g.send release sessions).map (·.session) = (sessions.filter (!·.closed)).map (·.session) := by
  rw [GateState.send, List.map_map]
  rfl

theorem drain {release : GateState → Release} :
    s.Drains (s.drain due release).1 (s.drain due release).2 := by
  have split : ((Sweep.sweepAll due s.gates).1 ++ (Sweep.sweepAll due s.gates).2).Perm s.gates := Sweep.sweepAll_perm
  refine ⟨⟨(Sweep.sweepAll due s.gates).2.flatMap (·.parked), ?_, .of_eq ?_⟩, fun g member => ?_⟩
  · rw [queue, queue, EngineState.drain, ← List.flatMap_append]
    exact split.flatMap_right _
  · simp only [EngineState.drain, List.map_flatMap, List.filter_flatMap, send_sessions]
  · exact .inr ⟨g, split.subset (List.mem_append_left _ member), .refl _⟩

theorem topologyApplied {generation : Nat} :
    s.Drains (s.topologyApplied generation now).1 (s.topologyApplied generation now).2 := by
  obtain ⟨out, queues⟩ := drain (s := { s with appliedGeneration := if generation > s.appliedGeneration then generation
    else s.appliedGeneration })
  exact ⟨out, queues⟩

theorem drainGate : s.Drains (s.drainGate idx release).1 (s.drainGate idx release).2 := by
  unfold EngineState.drainGate
  split
  · exact .refl s
  · rename_i g found
    have split := Sweep.swapRemove_perm found
    refine ⟨⟨g.parked, ?_, .of_eq (send_sessions g release g.parked)⟩, fun h member => ?_⟩
    · calc ((Sweep.swapRemove s.gates idx).flatMap (·.parked) ++ g.parked).Perm
            (g.parked ++ (Sweep.swapRemove s.gates idx).flatMap (·.parked)) := List.perm_append_comm
        _ |>.Perm s.queue := split.flatMap_right GateState.parked
    · exact .inr ⟨h, split.subset (List.mem_cons_of_mem _ member), .refl _⟩

theorem close {spec : GateSpec} : s.Drains (s.close spec) [] := by
  unfold EngineState.close
  split
  · refine .same (queue_modify fun _ => rfl) fun g member => ?_
    rcases mem_modify member with old | ⟨h, found, rfl⟩
    · exact .inr ⟨g, old, rfl⟩
    · exact .inr ⟨h, List.mem_of_getElem? found, rfl⟩
  · refine .same (by simp [queue]) fun g member => ?_
    rcases List.mem_append.mp member with old | new
    · exact .inr ⟨g, old, rfl⟩
    · rw [List.mem_singleton.mp new]
      exact .inl rfl

theorem «open» {gateId : String} : s.Drains (s.«open» gateId now).1 (s.«open» gateId now).2 := by
  unfold EngineState.«open»
  split
  · exact .refl s
  split
  · exact .refl s
  split_ifs
  · exact .drainGate
  · refine .same (queue_modify fun _ => rfl) fun g member => ?_
    rcases mem_modify member with old | ⟨h, found, rfl⟩
    · exact .inr ⟨g, old, rfl⟩
    · exact .inr ⟨h, List.mem_of_getElem? found, rfl⟩
  · exact .drainGate

theorem map (part : GateState → List Parked)
    (split : ∀ g, ((f g).parked ++ part g).Perm g.parked) (shorter : ∀ g, (f g).parked.Sublist g.parked)
    {sent : List Sent}
    (sends : sent.map (·.session) = ((s.gates.flatMap part).filter (!·.closed)).map (·.session)) :
    s.Drains { s with gates := s.gates.map f } sent := by
  refine ⟨⟨s.gates.flatMap part, ?_, .of_eq sends⟩, fun g member => ?_⟩
  · simp only [queue, List.flatMap_map]
    exact (List.flatMap_append_perm s.gates _ _).trans (List.Perm.flatMap_left _ fun g _ => split g)
  · obtain ⟨h, before, rfl⟩ := List.mem_map.mp member
    exact .inr ⟨h, before, shorter h⟩

theorem pruneDead : s.Drains { s with gates := s.gates.map GateState.pruneDead } [] := by
  refine .map (fun g => g.parked.filter (·.closed)) (fun g => ?_) (fun g => List.filter_sublist) ?_
  · simpa [GateState.pruneDead] using (List.filter_append_perm (!·.closed) g.parked)
  · simp [List.filter_flatMap]

theorem rejectOverdueSessions :
    s.Drains (s.rejectOverdueSessions limits now).1 (s.rejectOverdueSessions limits now).2.1 := by
  refine (pruneDead (s := s)).trans (.map (fun g => g.parked.takeWhile (overdue limits now)) (fun g => ?_)
    (fun g => List.dropWhile_sublist _) ?_)
  · exact List.perm_append_comm.trans (.of_eq List.takeWhile_append_dropWhile)
  · simp only [List.filter_flatMap, List.map_flatMap]
    rw [← List.flatMap_def, List.map_flatMap]
    simp only [send_sessions]

end Drains

end EngineState

/-! ## The gates stay apart -/

theorem EngineState.ids_drain {release : GateState → Release}
    (distinct : (s.gates.map (·.spec.id)).Nodup) : ((s.drain due release).1.gates.map (·.spec.id)).Nodup := by
  have split : ((Sweep.sweepAll due s.gates).1 ++ (Sweep.sweepAll due s.gates).2).Perm s.gates := Sweep.sweepAll_perm
  have names := (split.map (·.spec.id)).nodup_iff.mpr distinct
  rw [List.map_append] at names
  exact names.of_append_left

theorem EngineState.ids_drainGate (distinct : (s.gates.map (·.spec.id)).Nodup) :
    ((s.drainGate idx release).1.gates.map (·.spec.id)).Nodup := by
  unfold EngineState.drainGate
  split
  · exact distinct
  · rename_i g found
    have names := ((Sweep.swapRemove_perm found).map (·.spec.id)).nodup_iff.mpr distinct
    exact (List.nodup_cons.mp names).2

theorem EngineState.ids_modify
    (same : ∀ g, s.gates[idx]? = some g → (f g).spec.id = g.spec.id) :
    (s.gates.modify idx f).map (·.spec.id) = s.gates.map (·.spec.id) := by
  apply List.ext_getElem? fun i => ?_
  simp only [List.getElem?_map, List.getElem?_modify]
  cases found : s.gates[i]? with
  | none => rfl
  | some g =>
    split_ifs with here
    · exact congrArg some (same g (here ▸ found))
    · rfl

theorem EngineState.ids_open {gateId : String} (distinct : (s.gates.map (·.spec.id)).Nodup) :
    ((s.«open» gateId now).1.gates.map (·.spec.id)).Nodup := by
  unfold EngineState.«open»
  split
  · exact distinct
  split
  · exact distinct
  split_ifs
  · exact ids_drainGate distinct
  · dsimp only
    rwa [ids_modify]
    exact fun _ _ => rfl
  · exact ids_drainGate distinct

theorem EngineState.ids_close {spec : GateSpec} (distinct : (s.gates.map (·.spec.id)).Nodup) :
    ((s.close spec).gates.map (·.spec.id)).Nodup := by
  unfold EngineState.close
  split
  · rename_i idx found
    obtain ⟨g, here, named⟩ := position_eq_some found
    dsimp only
    rwa [ids_modify]
    intro h there
    cases here.symm.trans there
    have same := List.find?_some named
    simp only [beq_iff_eq] at same
    exact same.symm
  · rename_i absent
    rw [List.map_append, List.nodup_append]
    refine ⟨distinct, List.nodup_singleton _, fun id old other new => ?_⟩
    rintro rfl
    obtain ⟨g, member, named⟩ := List.mem_map.mp old
    have other := List.find?_eq_none.mp (position_eq_none absent) g member
    exact other (beq_iff_eq.mpr (named.trans (List.mem_singleton.mp new)))

/-! ## Every session is accounted for -/

structure Ledger.Conserves (limits : GateLimits) (l : Ledger) : Prop where
  fresh : ∀ session ∈ l.handed, session < l.engine.sessions
  gone : ∀ session ∈ l.gone, session ∈ l.handed
  parked : ∀ p ∈ l.engine.state.queue, p.session ∈ l.handed ∧ (p.closed = true ↔ p.session ∈ l.gone)
  released : ∀ r ∈ l.engine.released, r.session ∈ l.handed
  once : ∀ session ∈ l.handed, session ∉ l.gone → l.engine.state.held session + sentTo l.engine.released session = 1
  arrival : ∀ g ∈ l.engine.state.gates, (g.parked.map (·.session)).Pairwise (· < ·)
  distinct : (l.engine.state.gates.map (·.spec.id)).Nodup
  bounded : ∀ g ∈ l.engine.state.gates, g.parked.length ≤ limits.maxSessions
  total : l.engine.state.totalParked ≤ limits.maxTotalSessions

@[simp] theorem GateState.pruneDead_spec (g : GateState) : g.pruneDead.spec = g.spec := rfl

@[simp] theorem GateEngine.after_nil (e : GateEngine) (state : EngineState) : e.after state [] = { e with state } := by
  simp [GateEngine.after]

theorem EngineState.check_cases (limits : GateLimits) (s : EngineState) (scope : StatementScope) (session now : Nat) :
    s.check limits scope session now = (s, [], .proceed) ∨
      s.check limits scope session now = ({ s with gates := s.gates.map GateState.pruneDead }, [], .proceed) ∨
      (∃ g : GateState, s.check limits scope session now =
        ({ s with gates := s.gates.map GateState.pruneDead }, [⟨session, .rejected, g.spec⟩], .reject)) ∨
      ∃ idx g, (s.gates.map GateState.pruneDead)[idx]? = some g ∧ g.parked.length < limits.maxSessions ∧
        EngineState.totalParked { s with gates := s.gates.map GateState.pruneDead } < limits.maxTotalSessions ∧
        s.check limits scope session now =
          ({ s with gates := (s.gates.map GateState.pruneDead).modify idx fun g =>
              { g with parked := g.parked ++ [⟨session, now, false⟩] } }, [], .park) := by
  unfold EngineState.check
  split
  · exact .inl rfl
  dsimp only
  split
  · exact .inr (.inl rfl)
  rename_i idx _ _ g found
  split_ifs with full
  · exact .inr (.inr (.inl ⟨g, rfl⟩))
  · simp only [Bool.or_eq_true, decide_eq_true_eq, not_or, not_le] at full
    exact .inr (.inr (.inr ⟨idx, g, found, full.2, full.1, rfl⟩))

theorem sentTo_append (released : List Released) (sent : List Sent) (generations : List Nat) (time session : Nat) :
    sentTo (released ++ sent.map fun r => ⟨r, generations, time⟩) session =
      sentTo released session + (sent.map (·.session)).count session := by
  simp [sentTo, Function.comp_def]

namespace Ledger.Conserves

section

variable (conserves : l.Conserves limits)
include conserves

theorem drains (drains : l.engine.state.Drains t sent)
    (distinct : (t.gates.map (·.spec.id)).Nodup) (generations : List Nat) :
    Conserves limits { l with engine := GateEngine.after { l.engine with generations } t sent } := by
  obtain ⟨⟨left, split, sends⟩, queues⟩ := id drains
  have stays : ∀ p ∈ t.queue, p ∈ l.engine.state.queue := fun p member =>
    split.subset (List.mem_append_left _ member)
  have leaves : ∀ p ∈ left, p ∈ l.engine.state.queue := fun p member => split.subset (List.mem_append_right _ member)
  refine ⟨conserves.fresh, conserves.gone, fun p member => conserves.parked p (stays p member), fun r member => ?_,
    fun session handed connected => ?_, fun g member => ?_, distinct, fun g member => ?_, ?_⟩
  · rcases List.mem_append.mp member with old | new
    · exact conserves.released r old
    · obtain ⟨r, fresh, rfl⟩ := List.mem_map.mp new
      have listed := sends.subset (List.mem_map_of_mem fresh)
      obtain ⟨p, inside, same⟩ := List.mem_map.mp listed
      have known := (conserves.parked p (leaves p (List.mem_of_mem_filter inside))).1
      exact same ▸ known
  -- a connected session that leaves the queues is sent a release
  · have before := conserves.once session handed connected
    have open_ : (left.filter (!·.closed)).countP (·.session == session) = left.countP (·.session == session) := by
      rw [List.countP_filter]
      refine List.countP_congr fun p member => ?_
      constructor
      · intro both
        exact (Bool.and_eq_true_iff.mp both).1
      · intro named
        have closed := (conserves.parked p (leaves p member)).2
        rw [beq_iff_eq.mp named] at closed
        have stillOpen : p.closed = false := Bool.eq_false_iff.mpr fun shut => connected (closed.mp shut)
        simp [named, stillOpen]
    have sentNow : (sent.map (·.session)).count session = (left.map (·.session)).count session := by
      rw [sends.count_eq]
      simp only [List.count, List.countP_map]
      exact open_
    have whole := (split.map (·.session)).count_eq session
    rw [List.map_append, List.count_append] at whole
    change t.held session + sentTo (l.engine.released ++ _) session = 1
    rw [sentTo_append, sentNow]
    unfold EngineState.held at before ⊢
    omega
  · rcases queues g member with empty | ⟨h, old, shorter⟩
    · simp [empty]
    · exact (conserves.arrival h old).sublist (shorter.map _)
  · rcases queues g member with empty | ⟨h, old, shorter⟩
    · simp [empty]
    · exact shorter.length_le.trans (conserves.bounded h old)
  · have shorter := drains.length_le
    have total := conserves.total
    rw [EngineState.totalParked_eq] at total ⊢
    exact shorter.trans total

theorem proceed :
    Conserves limits { l with engine := { l.engine with sessions := l.engine.sessions + 1 } } :=
  ⟨fun session handed => (conserves.fresh session handed).trans (Nat.lt_succ_self _), conserves.gone,
    conserves.parked, conserves.released, conserves.once, conserves.arrival, conserves.distinct, conserves.bounded, conserves.total⟩

theorem held_new (new : session ∉ l.handed) : l.engine.state.held session = 0 := by
  refine List.count_eq_zero.mpr fun member => ?_
  obtain ⟨p, queued, rfl⟩ := List.mem_map.mp member
  exact new (conserves.parked p queued).1

theorem sentTo_new (new : session ∉ l.handed) : sentTo l.engine.released session = 0 := by
  refine List.count_eq_zero.mpr fun member => ?_
  obtain ⟨r, sent, rfl⟩ := List.mem_map.mp member
  exact new (conserves.released r sent)

theorem reject (g : GateState) : Conserves limits
    { l with
      engine := { l.engine.after l.engine.state [⟨l.engine.sessions, .rejected, g.spec⟩] with
        sessions := l.engine.sessions + 1 }
      handed := l.engine.sessions :: l.handed } := by
  have new : l.engine.sessions ∉ l.handed := fun old => absurd (conserves.fresh _ old) (lt_irrefl _)
  refine ⟨fun session handed => ?_, fun session left => List.mem_cons_of_mem _ (conserves.gone session left),
    fun p member => ?_, fun r member => ?_, fun session handed connected => ?_, conserves.arrival, conserves.distinct, conserves.bounded, conserves.total⟩
  · rcases List.mem_cons.mp handed with rfl | old
    · exact Nat.lt_succ_self _
    · exact (conserves.fresh session old).trans (Nat.lt_succ_self _)
  · obtain ⟨known, closed⟩ := conserves.parked p member
    exact ⟨List.mem_cons_of_mem _ known, closed⟩
  · rcases List.mem_append.mp member with old | now
    · exact List.mem_cons_of_mem _ (conserves.released r old)
    · cases List.mem_singleton.mp now
      exact List.mem_cons_self
  · change l.engine.state.held session + sentTo (l.engine.released ++ _) session = 1
    rw [sentTo_append]
    rcases List.mem_cons.mp handed with rfl | old
    · simp [conserves.held_new new, conserves.sentTo_new new]
    · have other : l.engine.sessions ≠ session := fun same => new (same ▸ old)
      have unsent : [l.engine.sessions].count session = 0 := List.count_eq_zero.mpr (by simpa using other.symm)
      rw [List.map_singleton, unsent]
      exact conserves.once session old connected

theorem park (found : l.engine.state.gates[idx]? = some g)
    (room : g.parked.length < limits.maxSessions) (space : l.engine.state.totalParked < limits.maxTotalSessions)
    (now : Nat) : Conserves limits
    { l with
      engine := { l.engine with
        state := { l.engine.state with
          gates := l.engine.state.gates.modify idx fun g =>
            { g with parked := g.parked ++ [⟨l.engine.sessions, now, false⟩] } }
        sessions := l.engine.sessions + 1 }
      handed := l.engine.sessions :: l.handed } := by
  have new : l.engine.sessions ∉ l.handed := fun old => absurd (conserves.fresh _ old) (lt_irrefl _)
  obtain ⟨inside, -⟩ := List.getElem?_eq_some_iff.mp found
  obtain ⟨front, h, back, gates, rfl, modified⟩ := List.exists_of_modify
    (fun g : GateState => { g with parked := g.parked ++ [⟨l.engine.sessions, now, false⟩] }) inside
  obtain rfl : h = g := by simpa [gates] using found
  rw [modified]
  have queue : ((front ++ { h with parked := h.parked ++ [⟨l.engine.sessions, now, false⟩] } :: back).flatMap
      (·.parked)).Perm (⟨l.engine.sessions, now, false⟩ :: l.engine.state.queue) := by
    simp only [EngineState.queue, gates, List.flatMap_append, List.flatMap_cons]
    rw [List.append_assoc h.parked, List.singleton_append, ← List.append_assoc, ← List.append_assoc]
    exact List.perm_middle
  have listed : h ∈ l.engine.state.gates := List.mem_of_getElem? found
  refine ⟨fun session handed => ?_, fun session left => List.mem_cons_of_mem _ (conserves.gone session left),
    fun p member => ?_, fun r member => ?_, fun session handed stays => ?_, fun g member => ?_, ?_, fun g member => ?_, ?_⟩
  · rcases List.mem_cons.mp handed with rfl | old
    · exact Nat.lt_succ_self _
    · exact (conserves.fresh session old).trans (Nat.lt_succ_self _)
  · rcases List.mem_cons.mp (queue.subset member) with rfl | old
    · exact ⟨List.mem_cons_self, iff_of_false Bool.false_ne_true fun left => new (conserves.gone _ left)⟩
    · obtain ⟨known, closed⟩ := conserves.parked p old
      exact ⟨List.mem_cons_of_mem _ known, closed⟩
  · exact List.mem_cons_of_mem _ (conserves.released r member)
  · have counts := (queue.map (·.session)).count_eq session
    change (List.map _ (List.flatMap _ _)).count session + sentTo l.engine.released session = 1
    rw [counts, List.map_cons, List.count_cons]
    rcases List.mem_cons.mp handed with rfl | old
    · have held := conserves.held_new new
      have unsent := conserves.sentTo_new new
      unfold EngineState.held at held
      rw [held, unsent]
      simp
    · have other : l.engine.sessions ≠ session := fun same => new (same ▸ old)
      have before := conserves.once session old stays
      unfold EngineState.held at before
      simpa [other] using before
  · rcases List.mem_append.mp member with old | here
    · exact conserves.arrival g (gates ▸ List.mem_append_left _ old)
    rcases List.mem_cons.mp here with rfl | old
    · rw [List.map_append, List.pairwise_append]
      refine ⟨conserves.arrival h listed, List.pairwise_singleton _ _, fun session old last now => ?_⟩
      obtain ⟨p, queued, rfl⟩ := List.mem_map.mp old
      rw [List.mem_singleton.mp now]
      have known : p ∈ l.engine.state.queue := List.mem_flatMap.mpr ⟨h, listed, queued⟩
      exact conserves.fresh _ (conserves.parked p known).1
    · exact conserves.arrival g (gates ▸ List.mem_append_right _ (List.mem_cons_of_mem _ old))
  · have distinct := conserves.distinct
    rw [gates] at distinct
    simpa using distinct
  · rcases List.mem_append.mp member with old | here
    · exact conserves.bounded g (gates ▸ List.mem_append_left _ old)
    rcases List.mem_cons.mp here with rfl | old
    · simpa using room
    · exact conserves.bounded g (gates ▸ List.mem_append_right _ (List.mem_cons_of_mem _ old))
  · rw [EngineState.totalParked_eq] at space ⊢
    have longer := queue.length_eq
    rw [List.length_cons] at longer
    exact longer.le.trans space

theorem check {scope : StatementScope}
    (taken : l.step limits (.check scope) = some m) : m.Conserves limits := by
  have kept := conserves.drains (.refl _) conserves.distinct l.engine.generations
  have pruned := conserves.drains .pruneDead (by simpa [Function.comp_def] using conserves.distinct) l.engine.generations
  rw [GateEngine.after_nil] at kept pruned
  simp only [Ledger.step, GateEngine.step, Option.map_some, Option.some.injEq] at taken
  subst taken
  rcases l.engine.state.check_cases limits scope l.engine.sessions l.engine.clock with
    same | same | ⟨g, same⟩ | ⟨idx, g, found, room, space, same⟩
  · rw [same, GateEngine.after_nil]
    exact kept.proceed
  · rw [same, GateEngine.after_nil]
    exact pruned.proceed
  · rw [same]
    exact pruned.reject g
  · rw [same, GateEngine.after_nil]
    exact pruned.park found room space _

theorem disconnect (taken : l.step limits (.disconnect session) = some m) :
    m.Conserves limits := by
  simp only [Ledger.step] at taken
  split_ifs at taken with handed
  simp only [GateEngine.step, Option.map_some, Option.some.injEq, GateEngine.after_nil] at taken
  subst taken
  let shut (p : Parked) : Parked := if p.session == session then { p with closed := true } else p
  have named : ∀ p, (shut p).session = p.session := by
    intro p
    simp only [shut]
    split_ifs <;> rfl
  have queue : (l.engine.state.disconnect session).queue = l.engine.state.queue.map shut := by
    simp only [EngineState.queue, EngineState.disconnect, List.flatMap_map, List.map_flatMap]
    rfl
  have sessions : ∀ parked : List Parked, (parked.map shut).map (·.session) = parked.map (·.session) := by
    intro parked
    rw [List.map_map]
    exact List.map_congr_left fun p _ => named p
  refine ⟨conserves.fresh, List.forall_mem_cons.mpr ⟨handed, conserves.gone⟩, fun p member => ?_, conserves.released,
    fun other known connected => ?_, fun g member => ?_, ?_, fun g member => ?_, ?_⟩
  · rw [queue] at member
    obtain ⟨p, queued, rfl⟩ := List.mem_map.mp member
    obtain ⟨known, closed⟩ := conserves.parked p queued
    rw [named]
    refine ⟨known, ?_⟩
    by_cases own : p.session = session
    · simp [shut, own]
    · simp [shut, own, closed]
  · have before := conserves.once other known fun gone => connected (List.mem_cons_of_mem _ gone)
    unfold EngineState.held at before ⊢
    rwa [queue, sessions]
  · obtain ⟨h, old, rfl⟩ := List.mem_map.mp member
    have order := conserves.arrival h old
    rw [← sessions] at order
    exact order
  · simpa [EngineState.disconnect, Function.comp_def] using conserves.distinct
  · obtain ⟨h, old, rfl⟩ := List.mem_map.mp member
    simpa using conserves.bounded h old
  · have total := conserves.total
    rw [EngineState.totalParked_eq] at total ⊢
    simpa [queue] using total

theorem next {event : GateEvent}
    (taken : l.step limits event = some m) : m.Conserves limits := by
  cases event with
  | check scope => exact conserves.check taken
  | disconnect session => exact conserves.disconnect taken
  | close spec =>
    cases taken
    exact conserves.drains .close (EngineState.ids_close conserves.distinct) _
  | «open» gateId =>
    cases taken
    exact conserves.drains .«open» (EngineState.ids_open conserves.distinct) _
  | topologyApplied generation =>
    cases taken
    exact conserves.drains .topologyApplied (EngineState.ids_drain conserves.distinct) _
  | expireDue now =>
    cases taken
    exact conserves.drains .drain (EngineState.ids_drain conserves.distinct) _
  | rejectOverdueSessions now =>
    cases taken
    refine conserves.drains .rejectOverdueSessions ?_ _
    simpa [EngineState.rejectOverdueSessions, Function.comp_def] using conserves.distinct
  | tick seconds =>
    cases taken
    exact { conserves with }

end

theorem start : Conserves limits {} := by
  constructor <;> simp [EngineState.queue, EngineState.totalParked]

end Ledger.Conserves

/-- The call removes the gates that are due and sends each of their connected sessions a release; the other gates
stay as they are. -/
def Ledger.Removes (l m : Ledger) (due : GateState → Bool) : Prop :=
  m.engine.state.gates.Perm (l.engine.state.gates.filter (!due ·)) ∧
    ∃ sent : List Released, m.engine.released = l.engine.released ++ sent ∧
      (sent.map (·.session)).Perm
        ((((l.engine.state.gates.filter due).flatMap (·.parked)).filter (!·.closed)).map (·.session))

theorem Ledger.removes_drain {release : GateState → Release} {generations : List Nat}
    {time : Nat} (gates : s.gates = l.engine.state.gates)
    (stay : m.engine.state = (s.drain due release).1)
    (sent : m.engine.released = l.engine.released ++ (s.drain due release).2.map fun r => ⟨r, generations, time⟩) :
    l.Removes m due := by
  have removed := (@Sweep.sweepAll_removed _ s.gates due).flatMap_right GateState.parked
  unfold Ledger.Removes
  rw [stay, ← gates]
  refine ⟨Sweep.sweepAll_kept, _, sent, List.Perm.trans (.of_eq ?_) ((removed.filter (!·.closed)).map (·.session))⟩
  simp only [EngineState.drain, List.map_map, List.map_flatMap, List.filter_flatMap]
  exact List.flatMap_congr fun g _ => EngineState.Drains.send_sessions g (release g) g.parked

/-- In every run each session that was handed a receiver and is connected either waits in one queue or has been sent
one release. Each queue is in the order of arrival, in which the sessions are numbered, and within its limit; all
queues are within the common limit; the gates have different ids. A topology or a deadline takes out the gates it opens
or expires with all their sessions, and no others. -/
theorem parked_conserved (reached : Runs.Under (Ledger.step limits) (fun _ _ => true) {} l) :
    (∀ session ∈ l.handed, session ∉ l.gone →
      l.engine.state.held session = 1 ∧ sentTo l.engine.released session = 0 ∨
        l.engine.state.held session = 0 ∧ sentTo l.engine.released session = 1) ∧
    (∀ g ∈ l.engine.state.gates, (g.parked.map (·.session)).Pairwise (· < ·) ∧
      g.parked.length ≤ limits.maxSessions ∧ ∀ p ∈ g.parked, p.closed = true ↔ p.session ∈ l.gone) ∧
    (l.engine.state.gates.map (·.spec.id)).Nodup ∧ l.engine.state.totalParked ≤ limits.maxTotalSessions ∧
    (∀ generation m, l.step limits (.topologyApplied generation) = some m →
      l.Removes m (l.engine.state.opens generation)) ∧
    ∀ now m, l.step limits (.expireDue now) = some m → l.Removes m (·.spec.deadline ≤ now) := by
  have conserves : l.Conserves limits :=
    reached.invariant Ledger.Conserves.start fun _ _ _ conserves _ taken => conserves.next taken
  refine ⟨fun session handed connected => ?_, fun g member => ⟨conserves.arrival g member, conserves.bounded g member,
    fun p queued => ?_⟩, conserves.distinct, conserves.total, fun generation m taken => ?_, fun now m taken => ?_⟩
  · have once := conserves.once session handed connected
    omega
  · exact (conserves.parked p (List.mem_flatMap.mpr ⟨g, member, queued⟩)).2
  · cases taken
    have applied : (if generation > l.engine.state.appliedGeneration then generation
        else l.engine.state.appliedGeneration) = max generation l.engine.state.appliedGeneration := by
      split_ifs <;> omega
    have called : l.engine.state.topologyApplied generation l.engine.clock =
        EngineState.drain { l.engine.state with appliedGeneration := max generation l.engine.state.appliedGeneration }
          (l.engine.state.opens generation)
          (EngineState.openRelease (max generation l.engine.state.appliedGeneration) l.engine.clock) := by
      simp only [EngineState.topologyApplied, applied]
      rfl
    rw [called]
    exact Ledger.removes_drain (s := { l.engine.state with
      appliedGeneration := max generation l.engine.state.appliedGeneration }) rfl rfl rfl
  · cases taken
    exact Ledger.removes_drain rfl rfl rfl

def tableGate (table : String) (deadline : Nat) : GateSpec :=
  { id := table, mode := .all, matcher := { tables := [table] }, deadline, minTopologyGeneration := 1 }

/-- One of three sessions has gone when the first of two gates is due. -/
def expiringLedger (l : Ledger) : Bool :=
  decide (l.handed = [2, 1, 0]) && decide (l.gone = [1]) && decide (l.engine.state.queue.map (·.session) = [0, 1, 2])

theorem parked_conserved_expiry : ∃ l : Ledger,
    Runs.Under (Ledger.step {}) (fun _ _ => true) {} l ∧ l.handed = [2, 1, 0] ∧ l.gone = [1] ∧
      (∀ session ∈ l.handed, session ∉ l.gone →
        l.engine.state.held session = 1 ∧ sentTo l.engine.released session = 0 ∨
          l.engine.state.held session = 0 ∧ sentTo l.engine.released session = 1) ∧
      ∀ m, l.step {} (.expireDue 7) = some m → l.Removes m (·.spec.deadline ≤ 7) := by
  have ran : (Runs.exec (Ledger.step {}) (fun _ _ => true) {}
      [.close (tableGate "orders" 5), .close (tableGate "items" 9), .check ⟨["orders"], [], false⟩,
        .check ⟨["orders"], [], false⟩, .check ⟨["items"], [], false⟩, .disconnect 1]).any expiringLedger = true := by
    decide +kernel
  obtain ⟨l, reached, holds⟩ := Runs.Under.exists_of_exec ran
  simp only [expiringLedger, Bool.and_eq_true, decide_eq_true_eq] at holds
  obtain ⟨conserved, -, -, -, -, expires⟩ := parked_conserved reached
  exact ⟨l, reached, holds.1.1, holds.1.2, conserved, expires 7⟩

end PgShard.Gate
