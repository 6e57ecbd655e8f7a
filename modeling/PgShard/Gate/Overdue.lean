import PgShard.Gate.Conserve

/-! The sessions that have waited too long. -/

namespace PgShard.Gate

section

variable {α : Type} {q : α → Bool} {l : List α}

theorem takeWhile_eq_filter (closed : l.Pairwise fun a b => q b = true → q a = true) :
    l.takeWhile q = l.filter q ∧ l.dropWhile q = l.filter (!q ·) := by
  induction l with
  | nil => exact ⟨rfl, rfl⟩
  | cons a rest ih =>
    obtain ⟨below, closed⟩ := List.pairwise_cons.mp closed
    by_cases first : q a = true
    · simp [first, ih closed]
    · have none_below : ∀ b ∈ rest, q b = false := by
        intro b member
        exact Bool.not_eq_true _ ▸ fun holds => first (below b member holds)
      have kept : rest.filter (!q ·) = rest := List.filter_eq_self.mpr fun b member => by simp [none_below b member]
      have gone : rest.filter q = [] := List.filter_eq_nil_iff.mpr fun b member => by simp [none_below b member]
      simp [first, kept, gone]

end

variable {limits : GateLimits} {s t : EngineState} {sent : List Sent} {e : GateEngine} {clock now session : Nat}

/-- Each queue is in the order in which its sessions have arrived, and none of them arrives later than now. -/
def EngineState.InOrder (s : EngineState) (clock : Nat) : Prop :=
  ∀ g ∈ s.gates, g.parked.Pairwise (·.enqueued ≤ ·.enqueued) ∧ ∀ p ∈ g.parked, p.enqueued ≤ clock

namespace EngineState.InOrder

theorem drains (ordered : s.InOrder clock) (drains : s.Drains t sent) : t.InOrder clock := by
  intro g member
  rcases drains.queues g member with empty | ⟨h, before, shorter⟩
  · simp [empty]
  · obtain ⟨sorted, arrived⟩ := ordered h before
    exact ⟨sorted.sublist shorter, fun p queued => arrived p (shorter.subset queued)⟩

theorem park (ordered : s.InOrder clock) (idx : Nat) :
    InOrder { s with gates := s.gates.modify idx fun g =>
      { g with parked := g.parked ++ [⟨session, clock, false⟩] } } clock := by
  intro g member
  rcases mem_modify member with old | ⟨h, found, rfl⟩
  · exact ordered g old
  · obtain ⟨sorted, arrived⟩ := ordered h (List.mem_of_getElem? found)
    refine ⟨List.pairwise_append.mpr ⟨sorted, List.pairwise_singleton _ _, ?_⟩, ?_⟩
    · intro p queued last new
      rw [List.mem_singleton.mp new]
      exact arrived p queued
    · intro p queued
      rcases List.mem_append.mp queued with old | new
      · exact arrived p old
      · rw [List.mem_singleton.mp new]

theorem check {scope : StatementScope} (ordered : s.InOrder clock) :
    (s.check limits scope session clock).1.InOrder clock := by
  have pruned : InOrder { s with gates := s.gates.map GateState.pruneDead } clock := ordered.drains .pruneDead
  rcases check_cases limits s scope session clock with same | same | ⟨g, same⟩ | ⟨idx, g, -, -, -, same⟩
  · rw [same]
    exact ordered
  · rw [same]
    exact pruned
  · rw [same]
    exact pruned
  · rw [same]
    exact pruned.park idx

theorem disconnect (ordered : s.InOrder clock) : (s.disconnect session).InOrder clock := by
  intro g member
  obtain ⟨h, before, rfl⟩ := List.mem_map.mp member
  obtain ⟨sorted, arrived⟩ := ordered h before
  have same : ∀ p : Parked, (if p.session == session then { p with closed := true } else p).enqueued = p.enqueued := by
    intro p
    split_ifs <;> rfl
  refine ⟨List.pairwise_map.mpr (sorted.imp fun {a b} le => by rwa [same, same]), fun p queued => ?_⟩
  obtain ⟨p, there, rfl⟩ := List.mem_map.mp queued
  rw [same]
  exact arrived p there

end EngineState.InOrder

theorem GateEngine.step_inOrder {t : GateEngine} {event : GateEvent} (ordered : e.state.InOrder e.clock)
    (taken : e.step limits event = some t) : t.state.InOrder t.clock := by
  cases event with
  | close spec =>
    cases taken
    exact ordered.drains .close
  | «open» gateId =>
    cases taken
    exact ordered.drains .«open»
  | topologyApplied generation =>
    cases taken
    exact ordered.drains (@EngineState.Drains.topologyApplied e.state e.clock generation)
  | expireDue now =>
    cases taken
    have expired : e.state.Drains (e.state.expireDue now).1 (e.state.expireDue now).2.1 := .drain
    exact ordered.drains expired
  | rejectOverdueSessions now =>
    cases taken
    exact ordered.drains .rejectOverdueSessions
  | check scope =>
    cases taken
    exact ordered.check
  | disconnect session =>
    cases taken
    exact ordered.disconnect
  | tick seconds =>
    cases taken
    intro g member
    obtain ⟨sorted, arrived⟩ := ordered g member
    exact ⟨sorted, fun p queued => (arrived p queued).trans (Nat.le_add_right _ _)⟩

theorem GateEngine.reached_inOrder (reached : Runs.Under (GateEngine.step limits) (fun _ _ => true) {} e) :
    e.state.InOrder e.clock := by
  induction reached with
  | start => exact fun _ member => nomatch member
  | next _ _ taken ih => exact step_inOrder ih taken

theorem overdue_front {parked : List Parked} (sorted : parked.Pairwise (·.enqueued ≤ ·.enqueued)) :
    parked.takeWhile (EngineState.overdue limits now) = parked.filter (EngineState.overdue limits now) ∧
      parked.dropWhile (EngineState.overdue limits now) = parked.filter (!EngineState.overdue limits now ·) := by
  apply takeWhile_eq_filter
  refine sorted.imp fun {a b} earlier late => ?_
  simp only [EngineState.overdue, decide_eq_true_eq] at late ⊢
  omega

/-- In every run the call rejects the connected sessions that have waited longer than `max_wait`, each of them in its
place in the queues, and leaves the other connected ones. -/
theorem overdue_rejected_exactly (reached : Runs.Under (GateEngine.step limits) (fun _ _ => true) {} e) {t : GateEngine}
    (taken : e.step limits (.rejectOverdueSessions now) = some t) :
    (∀ p ∈ t.state.queue, now - p.enqueued ≤ limits.maxWait) ∧
    t.state.queue = (e.state.queue.filter (!·.closed)).filter (!EngineState.overdue limits now ·) ∧
    ∃ sent, t.released = e.released ++ sent ∧ (∀ r ∈ sent, r.release = .rejected) ∧
      sent.map (·.session) =
        ((e.state.queue.filter (!·.closed)).filter (EngineState.overdue limits now)).map (·.session) ∧
      (e.state.rejectOverdueSessions limits now).2.2 = sent.length := by
  have ordered := GateEngine.reached_inOrder reached
  have front : ∀ g ∈ e.state.gates.map GateState.pruneDead,
      g.parked.takeWhile (EngineState.overdue limits now) = g.parked.filter (EngineState.overdue limits now) ∧
        g.parked.dropWhile (EngineState.overdue limits now) = g.parked.filter (!EngineState.overdue limits now ·) := by
    intro g member
    exact overdue_front (ordered.drains .pruneDead g member).1
  have queue : (e.state.gates.map GateState.pruneDead).flatMap (·.parked) = e.state.queue.filter (!·.closed) := by
    rw [List.flatMap_map, EngineState.queue, List.filter_flatMap]
    rfl
  cases taken
  have stays : (e.state.rejectOverdueSessions limits now).1.queue =
      (e.state.queue.filter (!·.closed)).filter (!EngineState.overdue limits now ·) := by
    rw [← queue, List.filter_flatMap]
    simp only [EngineState.rejectOverdueSessions, EngineState.queue]
    rw [List.flatMap_map]
    exact List.flatMap_congr fun g member => (front g member).2
  refine ⟨fun p member => ?_, stays, _, rfl, fun r member => ?_, ?_, ?_⟩
  · change p ∈ (e.state.rejectOverdueSessions limits now).1.queue at member
    rw [stays] at member
    have waited := (List.mem_filter.mp member).2
    simpa [EngineState.overdue] using waited
  · obtain ⟨r, rejected, rfl⟩ := List.mem_map.mp member
    exact EngineState.rejectOverdueSessions_release rejected
  · rw [List.map_map, ← queue, List.filter_flatMap, List.map_flatMap]
    simp only [EngineState.rejectOverdueSessions, Function.comp_def]
    rw [List.map_flatMap]
    refine List.flatMap_congr fun g member => ?_
    rw [EngineState.Drains.send_sessions, (front g member).1, List.filter_eq_self.mpr]
    intro p queued
    obtain ⟨h, -, rfl⟩ := List.mem_map.mp member
    exact (List.mem_filter.mp (List.mem_filter.mp queued).1).2
  · rw [List.length_map]
    rfl

def overdueEngine (e : GateEngine) : Bool :=
  decide (e.clock = 25) && decide (e.state.queue = [⟨0, 0, false⟩, ⟨1, 15, false⟩])

theorem overdue_rejected_first : ∃ e t : GateEngine, Runs.Under (GateEngine.step {}) (fun _ _ => true) {} e ∧
    e.step {} (.rejectOverdueSessions 25) = some t ∧ e.state.queue.map (·.session) = [0, 1] ∧
    t.state.queue.map (·.session) = [1] ∧
    ∃ sent, t.released = e.released ++ sent ∧ sent.map (·.session) = [0] := by
  have ran : (Runs.exec (GateEngine.step {}) (fun _ _ => true) {}
      [.close (tableGate "orders" 60), .check ⟨["orders"], [], true⟩, .tick 15, .check ⟨["orders"], [], true⟩,
        .tick 10]).any overdueEngine = true := by
    decide +kernel
  obtain ⟨e, reached, holds⟩ := Runs.Under.exists_of_exec ran
  simp only [overdueEngine, Bool.and_eq_true, decide_eq_true_eq] at holds
  have taken : ∃ t, e.step {} (.rejectOverdueSessions 25) = some t := ⟨_, rfl⟩
  obtain ⟨t, taken⟩ := taken
  obtain ⟨-, stays, sent, released, -, sessions, -⟩ := overdue_rejected_exactly reached taken
  rw [holds.2] at stays sessions
  exact ⟨e, t, reached, taken, by rw [holds.2]; rfl, by rw [stays]; rfl, sent, released, sessions⟩

end PgShard.Gate
