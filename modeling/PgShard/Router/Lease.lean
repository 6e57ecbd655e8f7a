import PgShard.Lib.Runs
import PgShard.Router.Build

/-! The write lease of a router: polls of the topology source, and the watch loop. -/

namespace PgShard.Router

open Topo

/-- The value a watch channel holds; a receiver remembers the version it has seen. -/
structure Watch (α : Type) where
  value : α
  version : Nat := 0

def Watch.send {α : Type} (w : Watch α) (value : α) : Watch α :=
  ⟨value, w.version + 1⟩

/-- A successful read of the source: the epoch it saw, and the clocks before it. -/
structure SourceValidation where
  epoch : Nat
  boot : Nat
  wall : Nat
  deriving DecidableEq

structure ValidationClocks where
  boot : Nat
  wall : Nat
  deriving DecidableEq

def ValidationClocks.stamp (c : ValidationClocks) (epoch : Nat) : SourceValidation :=
  ⟨epoch, c.boot, c.wall⟩

structure Freshness where
  boot : Nat
  wall : Nat
  deriving DecidableEq

namespace Freshness

def seeded (v : SourceValidation) : Freshness :=
  ⟨v.boot, v.wall⟩

def unconfirmed : Freshness :=
  ⟨0, 0⟩

def install (f : Freshness) (v : SourceValidation) : Freshness :=
  if v.boot > f.boot then ⟨v.boot, v.wall⟩ else f

/-- The age at the given clocks. It is maximal, here `none`, if the wall clock has stepped back past the stamp or
the boot clock cannot be read. -/
def age (f : Freshness) (wall : Nat) (bootNow : Option Nat) : Option Nat :=
  if wall < f.wall then none else bootNow.map fun now => max (now - f.boot) (wall - f.wall)

end Freshness

def apply (sender : Watch Topology) (candidate : Topology) : Watch Topology :=
  if candidate.epoch > sender.value.epoch then sender.send candidate else sender

/-- A poll or a reload, between its awaits and the other threads. -/
inductive Poll
  | reading (clocks : ValidationClocks)
  | loaded (clocks : ValidationClocks) (candidate : Topology)
  | applied (stamp : SourceValidation)

inductive Phase
  | idle
  /-- `updates.changed()` has returned. -/
  | updateReady
  | building (topology : Topology)
  /-- A router of this epoch has been stored. -/
  | swapped (epoch : Nat)
  | consulted (epoch : Nat) (stamp : SourceValidation)
  /-- `validated.changed()` has returned. -/
  | validationReady
  | stamped (stamp : SourceValidation)

/-- `watch_topology_leased`, with the router it serves and the freshness it renews. -/
structure Loop where
  seenUpdates : Nat
  seenValidated : Nat
  active : Router
  freshness : Freshness
  phase : Phase

/-- The next step of the loop. At the `select!` either channel may be taken. -/
def Loop.step (updates : Watch Topology) (validated : Watch SourceValidation) (isUpdate : Bool) (l : Loop) :
    Option Loop :=
  match l.phase with
  | .idle =>
    if isUpdate then
      if l.seenUpdates = updates.version then none
      else some { l with seenUpdates := updates.version, phase := .updateReady }
    else if l.seenValidated = validated.version then none
    else some { l with seenValidated := validated.version, phase := .validationReady }
  | .updateReady => some { l with seenUpdates := updates.version, phase := .building updates.value }
  | .building topology =>
    match build topology with
    | .ok router => some { l with active := router, phase := .swapped router.epoch }
    | .error _ => some { l with phase := .idle }
  | .swapped epoch => some { l with phase := .consulted epoch validated.value }
  | .consulted epoch stamp =>
    some { l with freshness := if stamp.epoch = epoch then l.freshness.install stamp else l.freshness, phase := .idle }
  | .validationReady => some { l with seenValidated := validated.version, phase := .stamped validated.value }
  | .stamped stamp =>
    some { l with
      freshness := if stamp.epoch = l.active.epoch then l.freshness.install stamp else l.freshness
      phase := .idle }

/-- The router's process: `main` wires the loop up and spawns it. -/
inductive Stage
  | starting
  | subscribed (seenUpdates : Nat)
  | built (seenUpdates : Nat) (active : Router)
  | seeded (seenUpdates : Nat) (active : Router) (freshness : Freshness)
  | running (loop : Loop)
  /-- The initial topology does not build, or its lease is no longer than a poll. -/
  | failed

def Stage.step (pollSeconds : Nat) (updates : Watch Topology) (validated : Watch SourceValidation) (isUpdate : Bool) :
    Stage → Option Stage
  | .starting => some (.subscribed updates.version)
  | .subscribed seen =>
    match build updates.value with
    | .ok router => if router.writeLease ≤ pollSeconds then some .failed else some (.built seen router)
    | .error _ => some .failed
  | .built seen router =>
    some (.seeded seen router
      (if validated.value.epoch = router.epoch then .seeded validated.value else .unconfirmed))
  -- the loop's own receiver is subscribed after the seed was read through another one
  | .seeded seen router freshness => some (.running ⟨seen, validated.version, router, freshness, .idle⟩)
  | .running l => (l.step updates validated isUpdate).map .running
  | .failed => none

structure LeaseRun where
  pollSeconds : Nat
  clock : Nat
  polls : List Poll
  updates : Watch Topology
  validated : Watch SourceValidation
  stage : Stage

inductive LeaseEvent
  | tick (elapsed : Nat)
  | beginPoll (wall : Nat)
  /-- The file cannot be read or parsed, or is not valid. -/
  | failPoll (poll : Nat)
  | load (poll : Nat) (topology : Topology)
  | apply (poll : Nat)
  | announce (poll : Nat)
  | advance (isUpdate : Bool)

namespace LeaseRun

/-- `FileWatcher::start` has read a valid topology. -/
def start (pollSeconds : Nat) (initial : Topology) (clocks : ValidationClocks) : LeaseRun where
  pollSeconds
  clock := clocks.boot
  polls := []
  updates := ⟨initial, 0⟩
  validated := ⟨clocks.stamp initial.epoch, 0⟩
  stage := .starting

def step (w : LeaseRun) : LeaseEvent → Option LeaseRun
  | .tick elapsed => some { w with clock := w.clock + elapsed }
  | .beginPoll wall => some { w with polls := w.polls ++ [.reading ⟨w.clock, wall⟩] }
  | .failPoll i =>
    match w.polls[i]? with
    | some (.reading _) => some { w with polls := w.polls.eraseIdx i }
    | _ => none
  | .load i topology =>
    match w.polls[i]? with
    | some (.reading clocks) =>
      if validate topology = .ok () then some { w with polls := w.polls.set i (.loaded clocks topology) } else none
    | _ => none
  | .apply i =>
    match w.polls[i]? with
    | some (.loaded clocks candidate) => some { w with
        updates := Router.apply w.updates candidate
        polls := w.polls.set i (.applied (clocks.stamp candidate.epoch)) }
    | _ => none
  | .announce i =>
    match w.polls[i]? with
    | some (.applied stamp) => some { w with validated := w.validated.send stamp, polls := w.polls.eraseIdx i }
    | _ => none
  | .advance isUpdate =>
    (w.stage.step w.pollSeconds w.updates w.validated isUpdate).map fun stage => { w with stage }

end LeaseRun

/-! ## What each step does to the router and its freshness -/

def Stage.active? : Stage → Option Router
  | .built _ router | .seeded _ router _ => some router
  | .running l => some l.active
  | _ => none

def Stage.freshness? : Stage → Option Freshness
  | .seeded _ _ freshness => some freshness
  | .running l => some l.freshness
  | _ => none

section Steps

variable {updates : Watch Topology} {validated : Watch SourceValidation} {isUpdate : Bool} {l m : Loop} {s t : Stage}
  {f : Freshness} {v : SourceValidation} {pollSeconds : Nat} {w x : LeaseRun} {e : LeaseEvent}

theorem Freshness.install_ge (f : Freshness) (v : SourceValidation) : f.boot ≤ (f.install v).boot := by
  unfold Freshness.install
  split_ifs with newer
  · exact newer.le
  · exact le_refl _

theorem Freshness.install_cases (f : Freshness) (v : SourceValidation) : f.install v = f ∨ f.install v = .seeded v := by
  unfold Freshness.install
  split_ifs
  · exact .inr rfl
  · exact .inl rfl

/-- The epoch that is active is one that the source has published. While a topology is
built it is at least as new; once it is stored, the epoch in hand is the active one. -/
def Loop.Follows (epoch : Nat) (l : Loop) : Prop :=
  l.active.epoch ≤ epoch ∧
    match l.phase with
    | .building topology => l.active.epoch ≤ topology.epoch ∧ topology.epoch ≤ epoch
    | .swapped stored | .consulted stored _ => l.active.epoch = stored
    | _ => True

theorem Loop.Follows.mono {older newer : Nat} (follows : l.Follows older) (later : older ≤ newer) :
    l.Follows newer := by
  obtain ⟨active, phase⟩ := follows
  refine ⟨active.trans later, ?_⟩
  revert phase
  cases l.phase with
  | building topology => exact fun built => ⟨built.1, built.2.trans later⟩
  | _ => exact id

/-- What a step of the loop may do: the active epoch grows, and the freshness changes
only to a stamp of the active epoch that is not older. -/
structure Loop.Renews (l m : Loop) : Prop where
  epoch : l.active.epoch ≤ m.active.epoch
  boot : l.freshness.boot ≤ m.freshness.boot
  stamp : m.freshness = l.freshness ∨ ∃ v : SourceValidation, m.freshness = .seeded v ∧ v.epoch = m.active.epoch

theorem Loop.step_renews (follows : l.Follows updates.value.epoch) (taken : l.step updates validated isUpdate = some m) :
    l.Renews m ∧ m.Follows updates.value.epoch := by
  obtain ⟨seenUpdates, seenValidated, active, freshness, phase⟩ := l
  have same : ∀ (m : Loop), m.active = active → m.freshness = freshness →
      Loop.Renews ⟨seenUpdates, seenValidated, active, freshness, phase⟩ m := by
    rintro ⟨_, _, _, _, _⟩ rfl rfl
    exact ⟨le_refl _, le_refl _, .inl rfl⟩
  cases phase with
  | idle =>
    simp only [Loop.step] at taken
    split_ifs at taken
    · cases taken
      exact ⟨same _ rfl rfl, follows.1, trivial⟩
    · cases taken
      exact ⟨same _ rfl rfl, follows.1, trivial⟩
  | updateReady =>
    cases taken
    exact ⟨same _ rfl rfl, follows.1, follows.1, le_refl _⟩
  | building topology =>
    simp only [Loop.step] at taken
    split at taken
    · rename_i router built
      cases taken
      have epoch := (build_ok built).1
      have later := follows.2.1
      have published := follows.2.2
      exact ⟨⟨epoch ▸ later, le_refl _, .inl rfl⟩, epoch ▸ published, rfl⟩
    · cases taken
      exact ⟨same _ rfl rfl, follows.1, trivial⟩
  | swapped epoch =>
    cases taken
    exact ⟨same _ rfl rfl, follows.1, follows.2⟩
  | consulted epoch stamp =>
    cases taken
    refine ⟨?_, follows.1, trivial⟩
    by_cases confirms : stamp.epoch = epoch
    · simp only [confirms, if_true]
      exact ⟨le_refl _, freshness.install_ge stamp,
        (freshness.install_cases stamp).imp id fun seeded => ⟨stamp, seeded, confirms.trans follows.2.symm⟩⟩
    · simp only [confirms, if_false]
      exact same _ rfl rfl
  | validationReady =>
    cases taken
    exact ⟨same _ rfl rfl, follows.1, trivial⟩
  | stamped stamp =>
    cases taken
    refine ⟨?_, follows.1, trivial⟩
    by_cases confirms : stamp.epoch = active.epoch
    · simp only [confirms, if_true]
      exact ⟨le_refl _, freshness.install_ge stamp,
        (freshness.install_cases stamp).imp id fun seeded => ⟨stamp, seeded, confirms⟩⟩
    · simp only [confirms, if_false]
      exact same _ rfl rfl

def Stage.Follows (epoch : Nat) : Stage → Prop
  | .built _ router | .seeded _ router _ => router.epoch ≤ epoch
  | .running l => l.Follows epoch
  | _ => True

theorem Stage.Follows.mono {older newer : Nat} (follows : s.Follows older) (later : older ≤ newer) :
    s.Follows newer := by
  cases s with
  | built _ router | seeded _ router _ => exact le_trans follows later
  | running l => exact Loop.Follows.mono follows later
  | _ => trivial

/-- What a step of the process may do. A freshness that appears or changes is a stamp
of the epoch that is active, or at first unconfirmed. -/
structure Stage.Renews (s t : Stage) : Prop where
  epoch : ∀ r, s.active? = some r → ∃ r', t.active? = some r' ∧ r.epoch ≤ r'.epoch
  boot : ∀ f, s.freshness? = some f → ∃ f', t.freshness? = some f' ∧ f.boot ≤ f'.boot
  stamp : ∀ f, t.freshness? = some f → s.freshness? = some f ∨ (s.freshness? = none ∧ f = .unconfirmed) ∨
    ∃ (v : SourceValidation) (r : Router), f = .seeded v ∧ t.active? = some r ∧ v.epoch = r.epoch

theorem Stage.Renews.refl (s : Stage) : s.Renews s :=
  ⟨fun r active => ⟨r, active, le_refl _⟩, fun f fresh => ⟨f, fresh, le_refl _⟩, fun _ => .inl⟩

theorem Stage.step_renews (follows : s.Follows updates.value.epoch)
    (taken : s.step pollSeconds updates validated isUpdate = some t) : s.Renews t ∧ t.Follows updates.value.epoch := by
  cases s with
  | starting =>
    cases taken
    exact ⟨⟨nofun, nofun, nofun⟩, trivial⟩
  | subscribed seen =>
    simp only [Stage.step] at taken
    split at taken
    · rename_i router built
      split_ifs at taken
      · cases taken
        exact ⟨⟨nofun, nofun, nofun⟩, trivial⟩
      · cases taken
        exact ⟨⟨nofun, nofun, nofun⟩, (build_ok built).1.le⟩
    · cases taken
      exact ⟨⟨nofun, nofun, nofun⟩, trivial⟩
  | built seen router =>
    cases taken
    refine ⟨⟨?_, nofun, ?_⟩, follows⟩
    · rintro _ ⟨⟩
      exact ⟨router, rfl, le_refl _⟩
    · rintro _ ⟨⟩
      by_cases confirms : validated.value.epoch = router.epoch
      · exact .inr (.inr ⟨validated.value, router, by rw [if_pos confirms], rfl, confirms⟩)
      · exact .inr (.inl ⟨rfl, if_neg confirms⟩)
  | seeded seen router freshness =>
    cases taken
    refine ⟨⟨?_, ?_, fun _ => .inl⟩, follows, trivial⟩
    · rintro _ ⟨⟩
      exact ⟨router, rfl, le_refl _⟩
    · rintro _ ⟨⟩
      exact ⟨freshness, rfl, le_refl _⟩
  | running l =>
    obtain ⟨m, moved, rfl⟩ := Option.map_eq_some_iff.mp taken
    obtain ⟨⟨epoch, boot, stamp⟩, follows⟩ := Loop.step_renews follows moved
    refine ⟨⟨?_, ?_, ?_⟩, follows⟩
    · rintro _ ⟨⟩
      exact ⟨m.active, rfl, epoch⟩
    · rintro _ ⟨⟩
      exact ⟨m.freshness, rfl, boot⟩
    · rintro _ ⟨⟩
      rcases stamp with same | ⟨v, seeded, confirms⟩
      · exact .inl (congrArg some same.symm)
      · exact .inr (.inr ⟨v, m.active, seeded, rfl, confirms⟩)
  | failed => cases taken

theorem apply_epoch_le (sender : Watch Topology) (candidate : Topology) :
    sender.value.epoch ≤ (apply sender candidate).value.epoch := by
  unfold apply
  split_ifs with newer
  · exact newer.le
  · exact le_refl _

namespace LeaseRun

theorem step_cases (taken : w.step e = some x) :
    (∃ isUpdate, e = .advance isUpdate ∧ x.updates = w.updates ∧ x.validated = w.validated ∧
        w.stage.step w.pollSeconds w.updates w.validated isUpdate = some x.stage) ∨
      x.stage = w.stage ∧ w.updates.value.epoch ≤ x.updates.value.epoch ∧
        (x.validated = w.validated ∨ ∃ i v, e = .announce i ∧ x.validated = w.validated.send v) := by
  cases e with
  | tick elapsed | beginPoll wall =>
    cases taken
    exact .inr ⟨rfl, le_refl _, .inl rfl⟩
  | failPoll i =>
    simp only [step] at taken
    split at taken
    · cases taken
      exact .inr ⟨rfl, le_refl _, .inl rfl⟩
    · cases taken
  | load i topology =>
    simp only [step] at taken
    split at taken
    · split_ifs at taken
      cases taken
      exact .inr ⟨rfl, le_refl _, .inl rfl⟩
    · cases taken
  | apply i =>
    simp only [step] at taken
    split at taken
    · cases taken
      exact .inr ⟨rfl, apply_epoch_le _ _, .inl rfl⟩
    · cases taken
  | announce i =>
    simp only [step] at taken
    split at taken
    · cases taken
      exact .inr ⟨rfl, le_refl _, .inr ⟨i, _, rfl, rfl⟩⟩
    · cases taken
  | advance isUpdate =>
    obtain ⟨stage, moved, rfl⟩ := Option.map_eq_some_iff.mp taken
    exact .inl ⟨isUpdate, rfl, rfl, rfl, moved⟩

def Follows (w : LeaseRun) : Prop :=
  w.stage.Follows w.updates.value.epoch

theorem Follows.next (follows : w.Follows) (taken : w.step e = some x) : w.stage.Renews x.stage ∧ x.Follows := by
  rcases step_cases taken with ⟨isUpdate, _, updates, _, moved⟩ | ⟨stage, later, _⟩
  · unfold Follows at follows ⊢
    rw [updates]
    exact Stage.step_renews follows moved
  · unfold Follows at follows ⊢
    rw [stage]
    exact ⟨.refl _, follows.mono later⟩

end LeaseRun

/-! ## No renewal is lost -/

/-- The freshness covers the validation, if it confirms the router. -/
def Covers (router : Router) (freshness : Freshness) (v : SourceValidation) : Prop :=
  v.epoch = router.epoch → v.boot ≤ freshness.boot

/-- Once the loop has seen the latest validation, it is covered or in hand; but a router
that was just stored has still to consult it. -/
def Loop.Covered (validated : Watch SourceValidation) (l : Loop) : Prop :=
  l.seenValidated ≤ validated.version ∧ (l.seenValidated = validated.version →
    match l.phase with
    | .idle | .updateReady | .building _ => Covers l.active l.freshness validated.value
    | .consulted _ stamp | .stamped stamp => stamp = validated.value
    | .swapped _ | .validationReady => True)

theorem Loop.Covered.announce (covered : l.Covered validated) (v : SourceValidation) : l.Covered (validated.send v) := by
  refine ⟨covered.1.trans (Nat.le_succ _), fun seen => ?_⟩
  have older := covered.1
  have version : (validated.send v).version = validated.version + 1 := rfl
  omega

def Stage.Covered (validated : Watch SourceValidation) : Stage → Prop
  | .seeded _ router freshness => Covers router freshness validated.value
  | .running l => l.Covered validated
  | _ => True

namespace LeaseRun

end LeaseRun

end Steps

end PgShard.Router
