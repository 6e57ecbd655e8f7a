import PgShard.Failover.Aggregate
import PgShard.Lib.Runs
import PgShard.Lib.Terms

/-! The decision epochs of one object over every run of its reconciles. -/

namespace PgShard.Failover

open Versioned Terms

inductive Reply
  | done
  /-- The write is applied and its acknowledgement lost. -/
  | lost
  | failed
  deriving DecidableEq

inductive Outcome
  | updated (copy : Copy Status)
  | notFound
  | error
  deriving DecidableEq

def update (store : History Status) (copy : Copy Status) (reply : Reply) : History Status × Outcome :=
  if reply = .failed then (store, .error)
  else if store.current.isNone then (store, .notFound)
  else if !store.accepts copy.version then (store, .error)
  else
    (store.push (some copy.obj), if reply = .lost then .error else .updated ⟨store.size, copy.obj⟩)

inductive Pass
  | idle
  | read (copy : Copy Status)
  | write (copy : Copy Status)
  deriving DecidableEq

/-- A call as it is made, with the number of versions stored by then. -/
structure Call where
  promote : Promote
  versions : Nat
  deriving DecidableEq

structure World where
  store : History Status := ⟨[some {}]⟩
  pass : Nat → Pass := fun _ => .idle
  calls : List Call := []

inductive Choice
  /-- A reconcile begins, and reads version `i` from its cache. -/
  | read (w i : Nat)
  /-- `degradeForeignStorage`, with what it has found. -/
  | degrade (w : Nat) (generation : Int) (message : String) (reply : Reply)
  /-- `clearStorageProvenance`. -/
  | clear (w : Nat) (generation : Int) (reply : Reply)
  /-- `reconcileLogicalShard`, with what it has mirrored. -/
  | mirror (w : Nat) (phase : Phase) (primary : String) (conditions : List Condition) (reply : Reply)
  /-- `aggregateStatus` up to its write; the call of the agent may not be made. -/
  | aggregate (w : Nat) (owner : Owner) (poll : Poll) (called : Bool)
  /-- The write of the aggregation. -/
  | write (w : Nat) (reply : Reply)
  /-- The reconcile returns, or crashes. -/
  | stop (w : Nat)
  /-- Someone else stores the object with the same status. -/
  | edit
  | delete

def storageProvenance (status : ConditionStatus) (reason message : String) (generation : Int) : Condition :=
  ⟨"StorageProvenance", status, reason, message, generation⟩

def degraded (status : Status) (generation : Int) (message : String) : Status :=
  { status with
    conditions := setStatusCondition status.conditions (storageProvenance .false "ForeignData" message generation)
    phase := .degraded }

def verified (status : Status) (generation : Int) : Option Status :=
  match status.conditions.find? (·.type == "StorageProvenance") with
  | none => none
  | some c =>
    if c.status = .true then none
    else some { status with
      conditions := setStatusCondition status.conditions
        (storageProvenance .true "Verified" "all PVCs carry this node's identity label" generation) }

namespace World

def setPass (s : World) (w : Nat) (pass : Pass) : World :=
  { s with pass := Function.update s.pass w pass }

def finish (s : World) (w : Nat) (copy : Copy Status) (reply : Reply) : World :=
  { s with store := (update s.store copy reply).1 }.setPass w .idle

end World

def step (s : World) : Choice → Option World
  | .read w i =>
    match s.pass w, s.store.read i with
    | .idle, some copy => some (s.setPass w (.read copy))
    | _, _ => none
  | .degrade w generation message reply =>
    match s.pass w with
    | .read copy => some (s.finish w { copy with obj := degraded copy.obj generation message } reply)
    | _ => none
  | .clear w generation reply =>
    match s.pass w with
    | .read copy =>
      match verified copy.obj generation with
      | none => none
      | some status =>
        let (store, outcome) := update s.store { copy with obj := status } reply
        let next := match outcome with
          | .updated stored => .read stored
          | .notFound => .read { copy with obj := status }
          | .error => .idle
        some ({ s with store }.setPass w next)
    | _ => none
  | .mirror w phase primary conditions reply =>
    match s.pass w with
    | .read copy => some (s.finish w { copy with obj := { copy.obj with phase, currentPrimary := primary, conditions } } reply)
    | _ => none
  | .aggregate w owner poll called =>
    match s.pass w with
    | .read copy =>
      let a := aggregateStatus owner poll copy.obj
      let next := if a.status = copy.obj then .idle else .write { copy with obj := a.status }
      let made := if called then a.promote.toList.map (Call.mk · s.store.size) else []
      some ({ s with calls := s.calls ++ made }.setPass w next)
    | _ => none
  | .write w reply =>
    match s.pass w with
    | .write copy => some (s.finish w copy reply)
    | _ => none
  | .stop w => some (s.setPass w .idle)
  | .edit => s.store.current.map fun status => { s with store := s.store.push (some status) }
  | .delete => s.store.current.map fun _ => { s with store := s.store.push none }

def Reached : World → Prop :=
  Runs.Under step (fun _ _ => true) {}

/-! ## What an aggregation may decide -/

/-- The term of a status: the epoch, held by the target that it has committed to. -/
def Status.term (status : Status) : Term String :=
  ⟨status.decisionEpoch, if status.targetPrimary = "" then none else some status.targetPrimary⟩

theorem Status.term_holder {status : Status} (committed : status.targetPrimary ≠ "") :
    status.term.holder = some status.targetPrimary :=
  if_neg committed

variable {status after : Status} {call : Option Promote} {p : Promote}

theorem Handshake.follows (handshake : Handshake status after call) : Follows status.term after.term := by
  cases handshake with
  | rests | drives => exact .refl
  | finishes => exact .inr ⟨rfl, .inl rfl⟩
  | elects => exact .inl (Nat.lt_succ_self _)

theorem Handshake.driven (handshake : Handshake status after call) (made : p ∈ call) :
    status.targetPrimary ≠ "" ∧ p.target = status.targetPrimary ∧ p.epoch = status.decisionEpoch := by
  cases handshake with
  | drives committed _ driven => exact ⟨committed, driven p made⟩
  | rests | finishes | elects => cases made

variable {owner : Owner} {poll : Poll} {before : Status}

theorem aggregateStatus_handshake : ∃ assessed : Status, assessed.targetPrimary = before.targetPrimary ∧
    assessed.decisionEpoch = before.decisionEpoch ∧
    Handshake assessed (aggregateStatus owner poll before).status (aggregateStatus owner poll before).promote := by
  simp only [aggregateStatus]
  split
  · rename_i runs
    refine ⟨_, ?_, ?_, reconcileFailover_handshake fun t member => ?_⟩
    · rfl
    · rfl
    have parsed : (assess poll before).2.1 = none := by
      simp only [Bool.and_eq_true, Option.isNone_iff_eq_none] at runs
      exact runs.1
    simp only [assess] at parsed member
    obtain ⟨v, listed, -, pod, -⟩ := (assessIdentity_sees (by rw [parsed]; rfl)).origin t member
    exact pod ▸ Poll.views_named listed
  · refine ⟨_, ?_, ?_, .rests⟩
    · rfl
    · rfl

theorem aggregateStatus_follows : Follows before.term (aggregateStatus owner poll before).status.term := by
  obtain ⟨assessed, target, epoch, handshake⟩ := @aggregateStatus_handshake owner poll before
  have same : assessed.term = before.term := by simp [Status.term, target, epoch]
  exact same ▸ handshake.follows

theorem aggregateStatus_driven (made : p ∈ (aggregateStatus owner poll before).promote) :
    before.targetPrimary ≠ "" ∧ p.target = before.targetPrimary ∧ p.epoch = before.decisionEpoch := by
  obtain ⟨assessed, target, epoch, handshake⟩ := @aggregateStatus_handshake owner poll before
  exact target ▸ epoch ▸ handshake.driven made

/-! ## What is stored -/

section Stored

variable {store : History Status} {copy stored : Copy Status} {reply : Reply} {i : Nat} {a : Status}

/-- The copy has the term of the version it was read at. -/
def Held (store : History Status) (copy : Copy Status) : Prop :=
  ∃ a, store.entry copy.version = some a ∧ a.term = copy.obj.term

/-- The copy is an admissible successor of the version it was read at. -/
def Pending (store : History Status) (copy : Copy Status) : Prop :=
  ∃ a, store.entry copy.version = some a ∧ Follows a.term copy.obj.term

theorem Held.pending (held : Held store copy) {obj : Status} (follows : Follows copy.obj.term obj.term) :
    Pending store { copy with obj } := by
  obtain ⟨a, found, same⟩ := held
  exact ⟨a, found, same ▸ follows⟩

theorem update_entry (found : store.entry i = some a) : (update store copy reply).1.entry i = some a := by
  unfold update
  split_ifs <;> first | exact found | exact History.entry_push found

theorem update_ordered (ordered : Ordered Status.term store) (pending : Pending store copy) :
    Ordered Status.term (update store copy reply).1 := by
  unfold update
  split_ifs with failed gone outdated
  · exact ordered
  · exact ordered
  · exact ordered
  all_goals
    obtain ⟨a, found, follows⟩ := pending
    have latest : store.Genuine ⟨copy.version, a⟩ := found
    exact ordered.push (latest.current (by simpa using outdated)) follows

theorem update_updated (updated : (update store copy reply).2 = .updated stored) :
    Held (update store copy reply).1 stored := by
  unfold update at updated ⊢
  split_ifs at updated ⊢
  cases updated
  exact ⟨copy.obj, History.genuine_push, rfl⟩

end Stored

/-! ## The runs -/

/-- The invariant of every run: the stored terms are in order, every reconcile holds
a term that was stored, and every call was made for one. -/
structure Fenced (s : World) : Prop where
  ordered : Ordered Status.term s.store
  read : ∀ w copy, s.pass w = .read copy → Held s.store copy
  write : ∀ w copy, s.pass w = .write copy → Pending s.store copy
  called : ∀ c ∈ s.calls, c.promote.target ≠ "" ∧ ∃ i < c.versions, ∃ a, s.store.entry i = some a ∧
    a.targetPrimary = c.promote.target ∧ a.decisionEpoch = c.promote.epoch

theorem World.setPass_cases {s : World} {v w : Nat} {pass now : Pass} (at_ : (s.setPass w pass).pass v = now) :
    v = w ∧ pass = now ∨ v ≠ w ∧ s.pass v = now := by
  by_cases same : v = w
  · subst same
    exact .inl ⟨rfl, by simpa [setPass] using at_⟩
  · exact .inr ⟨same, by simpa [setPass, same] using at_⟩

namespace Fenced

variable {s : World} {w : Nat} {copy : Copy Status} {pass : Pass} {store : History Status} {reply : Reply}

section

variable (fenced : Fenced s)
include fenced

theorem stored (ordered : Ordered Status.term store)
    (grows : ∀ i a, s.store.entry i = some a → store.entry i = some a) : Fenced { s with store } where
  ordered := ordered
  read w copy held :=
    let ⟨a, found, same⟩ := fenced.read w copy held
    ⟨a, grows _ _ found, same⟩
  write w copy held :=
    let ⟨a, found, follows⟩ := fenced.write w copy held
    ⟨a, grows _ _ found, follows⟩
  called c member :=
    let ⟨named, i, before, a, found, same⟩ := fenced.called c member
    ⟨named, i, before, a, grows i a found, same⟩

theorem passed (read : ∀ copy, pass = .read copy → Held s.store copy)
    (write : ∀ copy, pass = .write copy → Pending s.store copy) : Fenced (s.setPass w pass) where
  ordered := fenced.ordered
  read v copy held := by
    rcases World.setPass_cases held with ⟨-, now⟩ | ⟨-, old⟩
    · exact read copy now
    · exact fenced.read v copy old
  write v copy held := by
    rcases World.setPass_cases held with ⟨-, now⟩ | ⟨-, old⟩
    · exact write copy now
    · exact fenced.write v copy old
  called := fenced.called

theorem idle : Fenced (s.setPass w .idle) :=
  fenced.passed (by simp) (by simp)

theorem finish (pending : Pending s.store copy) : Fenced (s.finish w copy reply) :=
  (fenced.stored (update_ordered fenced.ordered pending) fun _ _ => update_entry).idle

theorem clear (held : Held s.store copy) :
    Fenced ({ s with store := (update s.store copy reply).1 }.setPass w (match (update s.store copy reply).2 with
      | .updated stored => .read stored
      | .notFound => .read copy
      | .error => .idle)) := by
  have later : Fenced { s with store := (update s.store copy reply).1 } :=
    fenced.stored (update_ordered fenced.ordered (held.pending .refl)) fun _ _ => update_entry
  cases outcome : (update s.store copy reply).2 with
  | updated stored =>
    refine later.passed (fun c same => ?_) (by simp)
    obtain rfl := Pass.read.inj same
    exact update_updated outcome
  | notFound =>
    refine later.passed (fun c same => ?_) (by simp)
    obtain rfl := Pass.read.inj same
    obtain ⟨a, found, same⟩ := held
    exact ⟨a, update_entry found, same⟩
  | error => exact later.idle

theorem aggregate (held : Held s.store copy) {owner : Owner} {poll : Poll} {called : Bool} :
    Fenced ({ s with calls := s.calls ++ if called then
        (aggregateStatus owner poll copy.obj).promote.toList.map (Call.mk · s.store.size) else [] }.setPass w
      (if (aggregateStatus owner poll copy.obj).status = copy.obj then .idle
        else .write { copy with obj := (aggregateStatus owner poll copy.obj).status })) := by
  refine Fenced.passed ⟨fenced.ordered, fenced.read, fenced.write, fun c member => ?_⟩ ?_ ?_
  · rcases List.mem_append.mp member with old | new
    · exact fenced.called c old
    · split at new
      · obtain ⟨p, made, rfl⟩ := List.mem_map.mp new
        obtain ⟨committed, target, epoch⟩ := aggregateStatus_driven (Option.mem_toList.mp made)
        obtain ⟨a, found, same⟩ := held
        have number : a.decisionEpoch = copy.obj.decisionEpoch := congrArg Term.number same
        have holder := (congrArg Term.holder same).trans (Status.term_holder committed)
        have commits : a.targetPrimary = copy.obj.targetPrimary := by
          simp only [Status.term] at holder
          split at holder
          · cases holder
          · exact Option.some.inj holder
        exact ⟨target ▸ committed, copy.version, History.lt_of_entry found, a, found, commits.trans target.symm,
          number.trans epoch.symm⟩
      · cases new
  · intro c same
    split at same <;> cases same
  · intro c same
    split at same
    · cases same
    · obtain rfl := Pass.write.inj same
      exact held.pending aggregateStatus_follows

end

end Fenced

theorem verified_term {generation : Int} (clears : verified status generation = some after) : after.term = status.term := by
  unfold verified at clears
  split at clears
  · cases clears
  · split at clears
    · cases clears
    · obtain rfl := Option.some.inj clears
      rfl

theorem Fenced.next {s t : World} {c : Choice} (fenced : Fenced s) (taken : step s c = some t) : Fenced t := by
  cases c with
  | read w i =>
    simp only [step] at taken
    split at taken
    · rename_i copy _ found
      obtain rfl := Option.some.inj taken
      refine fenced.passed (fun c same => ?_) (by simp)
      obtain rfl := Pass.read.inj same
      exact ⟨copy.obj, History.read_genuine found, rfl⟩
    · cases taken
  | degrade w generation message reply | mirror w phase primary conditions reply =>
    simp only [step] at taken
    split at taken
    · rename_i copy reads
      obtain rfl := Option.some.inj taken
      exact fenced.finish ((fenced.read w copy reads).pending .refl)
    · cases taken
  | clear w generation reply =>
    simp only [step] at taken
    split at taken
    · rename_i copy reads
      split at taken
      · cases taken
      · rename_i status clears
        obtain rfl := Option.some.inj taken
        obtain ⟨a, found, same⟩ := fenced.read w copy reads
        exact fenced.clear ⟨a, found, same.trans (verified_term clears).symm⟩
    · cases taken
  | aggregate w owner poll called =>
    simp only [step] at taken
    split at taken
    · rename_i copy reads
      obtain rfl := Option.some.inj taken
      exact fenced.aggregate (fenced.read w copy reads)
    · cases taken
  | write w reply =>
    simp only [step] at taken
    split at taken
    · rename_i copy writes
      obtain rfl := Option.some.inj taken
      exact fenced.finish (fenced.write w copy writes)
    · cases taken
  | stop w =>
    obtain rfl := Option.some.inj taken
    exact fenced.idle
  | edit =>
    obtain ⟨status, latest, rfl⟩ := Option.map_eq_some_iff.mp taken
    exact fenced.stored (fenced.ordered.push latest .refl) fun _ _ => History.entry_push
  | delete =>
    obtain ⟨status, latest, rfl⟩ := Option.map_eq_some_iff.mp taken
    exact fenced.stored fenced.ordered.remove fun _ _ => History.entry_push

theorem Reached.fenced {s : World} (reached : Reached s) : Fenced s :=
  Runs.Under.invariant ⟨.start, by simp, by simp, by simp⟩ (fun _ _ _ fenced _ taken => fenced.next taken) reached

/-- One target for each decision epoch, in every run: calls with the same epoch have the
same target, which was stored with it before the call; and the stored epoch never
decreases, and increases with every new target. -/
theorem epochs_fence_targets {s : World} (reached : Reached s) :
    (∀ c ∈ s.calls, ∀ d ∈ s.calls, c.promote.epoch = d.promote.epoch → c.promote.target = d.promote.target) ∧
    (∀ c ∈ s.calls, ∃ i < c.versions, ∃ a, s.store.entry i = some a ∧ a.targetPrimary = c.promote.target ∧
      a.decisionEpoch = c.promote.epoch) ∧
    ∀ i j a b, i ≤ j → s.store.entry i = some a → s.store.entry j = some b → a.decisionEpoch ≤ b.decisionEpoch ∧
      (b.targetPrimary ≠ "" → b.targetPrimary ≠ a.targetPrimary → a.decisionEpoch < b.decisionEpoch) := by
  have fenced := reached.fenced
  refine ⟨fun c member d other same => ?_, fun c member => (fenced.called c member).2, fun i j a b order first second => ?_⟩
  · obtain ⟨named, i, -, a, found, target, epoch⟩ := fenced.called c member
    obtain ⟨named', j, -, b, found', target', epoch'⟩ := fenced.called d other
    refine fenced.ordered.holder_eq found found' (epoch.trans (same.trans epoch'.symm)) ?_ ?_
    · exact (Status.term_holder (target ▸ named)).trans (congrArg some target)
    · exact (Status.term_holder (target' ▸ named')).trans (congrArg some target')
  · have follows := fenced.ordered i j a b order first second
    refine ⟨follows.number_le, fun committed new => follows.number_lt (Status.term_holder committed) fun holds => ?_⟩
    simp only [Status.term] at holds
    split at holds
    · cases holds
    · exact new (Option.some.inj holds).symm

def standbys (first second : Nat) : Poll where
  pods := [⟨"pg-1", "10.0.0.1", true, some (healthy .standby first 7)⟩,
    ⟨"pg-2", "10.0.0.2", true, some (healthy .standby second 7)⟩]
  named := by simp
  distinct := by simp

/-- Two reconciles elect different targets from the same version; the first to write
loses its acknowledgement, the second is refused, and the third drives what is stored. -/
def contested : List Choice :=
  let pg : Owner := ⟨"pg", 2, 1⟩
  [.read 0 0, .read 1 0, .aggregate 0 pg (standbys 40 60) true, .aggregate 1 pg (standbys 60 40) true, .write 0 .lost,
    .write 1 .done, .read 1 1, .aggregate 1 pg (standbys 40 60) true]

theorem contested_calls : (Runs.exec step (fun _ _ => true) {} contested).any (fun s =>
    s.calls == [⟨⟨"10.0.0.2", "pg-2", 1⟩, 2⟩]) = true := by
  decide +kernel

theorem epochs_fence_targets_contested : ∃ s, Reached s ∧ s.calls = [⟨⟨"10.0.0.2", "pg-2", 1⟩, 2⟩] ∧
    ∃ i < 2, ∃ a, s.store.entry i = some a ∧ a.targetPrimary = "pg-2" ∧ a.decisionEpoch = 1 := by
  obtain ⟨s, reached, calls⟩ := Runs.Under.exists_of_exec contested_calls
  rw [beq_iff_eq] at calls
  exact ⟨s, reached, calls, (epochs_fence_targets reached).2.1 _ (calls ▸ List.mem_singleton_self _)⟩

end PgShard.Failover
