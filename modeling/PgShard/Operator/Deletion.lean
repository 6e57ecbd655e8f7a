import PgShard.Operator.Cleanup
import PgShard.Operator.Ownership
import PgShard.Operator.Withdrawal

/-! What goes with a deleted reshard. -/

namespace PgShard.Operator

open Versioned

variable {status : ReshardStatus} {i : Nat}

variable {w w' after : World} {n s : String} {c : Choice} {p q : Pass} {r r' : Reshard} {x : Shard}

/-! ## Moves of a committed switch -/

/-- The phases a committed switch can be in. -/
def ReshardPhase.late (phase : ReshardPhase) : Prop :=
  phase = .cuttingOver ∨ phase = .switchedForward ∨ phase = .failed

theorem ReshardPhase.late_not_early {phase : ReshardPhase} (late : phase.late) : phase.early = false := by
  rcases late with rfl | rfl | rfl <;> rfl

theorem Move.late (move : Move p r status) (before : r.status.switchCommitted = true →
    r.status.phase.late) (committed : status.switchCommitted = true) : status.phase.late := by
  cases move with
  | commit _ phase => exact .inl phase
  | failed => exact .inr (.inr rfl)
  | switched => exact .inr (.inl rfl)
  | gate => exact .inl rfl
  | rolledBack _ _ uncommitted => cases committed.symm.trans uncommitted
  | await _ early | validated _ early => cases early.symm.trans (ReshardPhase.late_not_early (before committed))
  | provisioned _ phase | streaming _ phase | caughtUp _ phase =>
    simpa [phase, ReshardPhase.late] using before committed
  | _ => exact before committed

theorem Move.targets (move : Move p r status) (before : r.status.switchCommitted = true →
    r.status.phase.late) (committed : status.switchCommitted = true) :
    (r.status.switchCommitted = true ∧ status.targetShards = r.status.targetShards) ∨
      ∀ name ∈ status.targetShards, ∃ x ∈ p.shards, x.obj.name = name ∧ x.obj.controller = some r.uid := by
  cases move with
  | commit _ _ _ _ _ _ _ own =>
    refine .inr fun name member => ?_
    obtain ⟨i, bound, target⟩ := List.getElem_of_mem member
    obtain ⟨x, held, named, fit⟩ := own i name (List.getElem?_eq_some_iff.mpr ⟨bound, target⟩)
    refine ⟨x, held, named, ?_⟩
    unfold foreignTarget at fit
    split at fit
    · cases fit
    · rename_i own
      exact not_not.mp fun other => own (.inl other)
  | provisioned _ phase => exact absurd (before committed) (by simp [phase, ReshardPhase.late])
  | _ => exact .inl ⟨committed, rfl⟩

/-! ## Committed switches and the shards that serve -/

/-- Whoever is stored under the UID has committed. -/
def World.switchedUid (w : World) (u : String) : Prop :=
  ∀ n r, w.reshard n = some r → r.uid = u → r.status.switchCommitted = true

structure Switches (w : World) : Prop where
  late : ∀ {n i r}, (w.reshards n).entry i = some r → r.status.switchCommitted = true → r.status.phase.late
  lasting : ∀ {n i r}, (w.reshards n).entry i = some r → r.status.switchCommitted = true → w.switchedUid r.uid
  targets : ∀ {n i r name}, (w.reshards n).entry i = some r → r.status.switchCommitted = true →
    name ∈ r.status.targetShards → ∃ j x, (w.shards name).entry j = some x ∧ x.controller = some r.uid
  serving : ∀ {s x u}, w.shard s = some x → x.serving = true → x.controller = some u → w.switchedUid u

theorem Happens.switchedUid (happens : Happens w c w') (lawful : Lawful w) {u : String}
    (known : w.freshUid u = false) (before : w.switchedUid u) : w'.switchedUid u := by
  intro n r now uid
  cases happens.stored lawful now with
  | same stored => exact before n _ stored uid
  | moved _ _ stored move => exact move.keeps_commit (before n _ stored uid)
  | pinned _ stored | deleted _ stored => exact (before n _ stored uid :)
  | born _ fresh =>
    cases uid
    cases known.symm.trans fresh

theorem Lawful.not_fresh (lawful : Lawful w) (found : (w.reshards n).entry i = some r) :
    w.freshUid r.uid = false := by
  simp [World.freshUid, (lawful.reshard found).2.2.1]

section

variable (switches : Switches w) (owned : Owned w) (lawful : Lawful w) (happens : Happens w c w')
include switches lawful happens

theorem Switches.late_step
    (found : (w'.reshards n).entry i = some r) (committed : r.status.switchCommitted = true) : r.status.phase.late := by
  rcases happens.entry found with ⟨j, old⟩ | now
  · exact switches.late old committed
  · cases happens.stored lawful now with
    | same stored => exact switches.late stored committed
    | moved _ _ stored move => exact move.late (switches.late stored) committed
    | pinned _ stored | deleted _ stored => exact (switches.late stored committed :)
    | born => cases committed

theorem Switches.lasting_step
    (found : (w'.reshards n).entry i = some r) (committed : r.status.switchCommitted = true) : w'.switchedUid r.uid := by
  rcases happens.entry found with ⟨j, old⟩ | now
  · exact happens.switchedUid lawful (lawful.not_fresh old) (switches.lasting old committed)
  · intro m r' stored uid
    obtain rfl := (lawful.happens happens).apart stored now uid
    cases now.symm.trans stored
    exact committed

theorem Switches.targets_step
    {name : String} (found : (w'.reshards n).entry i = some r) (committed : r.status.switchCommitted = true)
    (target : name ∈ r.status.targetShards) : ∃ j x, (w'.shards name).entry j = some x ∧ x.controller = some r.uid := by
  have grown := happens.extends
  have before : ∀ {m j old}, (w.reshards m).entry j = some old → old.status.switchCommitted = true →
      name ∈ old.status.targetShards → ∃ j x, (w'.shards name).entry j = some x ∧ x.controller = some old.uid := by
    intro m j old found committed target
    obtain ⟨k, x, stored, own⟩ := switches.targets found committed target
    exact ⟨k, x, grown.shards stored, own⟩
  rcases happens.entry found with ⟨j, old⟩ | now
  · exact before old committed target
  · cases happens.stored lawful now with
    | same stored => exact before stored committed target
    | moved running held stored move =>
      rcases move.targets (switches.late stored) committed with ⟨committed', same⟩ | own
      · exact (before stored committed' (same ▸ target) :)
      · obtain ⟨x, member, named, controller⟩ := own name target
        obtain ⟨-, -, genuine⟩ := lawful.thread running
        exact ⟨x.version, x.obj, grown.shards (named ▸ genuine.shards x member), controller⟩
    | pinned _ stored | deleted _ stored => exact (before stored committed target :)
    | born => cases committed

include owned

theorem Switches.serving_step
    {u : String} (found : w'.shard s = some x) (serving : x.serving = true) (owner : x.controller = some u) :
    w'.switchedUid u := by
  have before : ∀ {old : Shard}, w.shard s = some old → old.serving = true → old.controller = some u →
      w'.switchedUid u := by
    intro old stored serving owner
    refine happens.switchedUid lawful ?_ (switches.serving stored serving owner)
    rcases owned.shardOwner stored owner with known | outside
    · simp [World.freshUid, known]
    · simp [World.freshUid, outside]
  cases happens.shard found with
  | same stored => exact before stored serving owner
  | @edited m t h old new running held stored edit =>
    cases edit with
    | claim | release => exact before stored serving owner
    | hide => cases serving
    | serve target committed =>
      obtain ⟨-, -, genuine⟩ := lawful.thread running
      obtain ⟨entry, -⟩ := genuine.held h held
      obtain ⟨j, y, shard, own⟩ := switches.targets entry committed target
      have same := owned.lasts ((lawful.shard stored).1 ▸ shard) stored
      cases (own.symm.trans same).trans owner
      exact happens.switchedUid lawful (lawful.not_fresh entry) (switches.lasting entry committed)
  | changed stored => exact before stored (Bool.and_eq_true_iff.mp serving).1 owner
  | made _ _ _ permitted => cases permitted.1.symm.trans serving
  | appeared _ _ noted =>
    intro n r stored uid
    exact absurd (uid ▸ noted u owner) (owned.foreign_step lawful happens stored)

theorem Switches.step :
    Switches w' where
  late := switches.late_step lawful happens
  lasting := switches.lasting_step lawful happens
  targets := switches.targets_step lawful happens
  serving := switches.serving_step owned lawful happens

end

theorem Reached.switches (reached : Reached w) : Switches w := by
  refine reached.invariant ⟨fun found => (by cases found), fun found => (by cases found), fun found => (by cases found),
    fun found => (by cases found)⟩ ?_
  intro w c w' reached switches _ taken
  exact switches.step reached.owned reached.lawful (step_happens reached.lawful taken)

/-! ## Deletion -/

/-- Only reshards that have not committed are deleted. -/
def deletesOpen (w : World) : Choice → Bool
  | .deleteReshard n => (w.reshard n).all fun r => !r.status.switchCommitted
  | _ => true

theorem deletesOpen_open (fit : deletesOpen w (.deleteReshard n) = true) (stored : w.reshard n = some r) :
    r.status.switchCommitted = false := by
  simpa [deletesOpen, stored] using fit

/-- A reshard being deleted has not committed, and will not. -/
def AllDeletedOpen (w : World) : Prop :=
  ∀ n r, w.reshard n = some r → r.deleting = true → r.status.switchCommitted = false

theorem Move.deleted_open (move : Move p r status) (deleting : r.deleting = true)
    (before : r.status.switchCommitted = false) : status.switchCommitted = false := by
  cases move with
  | commit _ _ alive => cases deleting.symm.trans alive
  | _ => exact before

theorem ReachedUnder.deletedOpen (reached : ReachedUnder deletesOpen w) : AllDeletedOpen w := by
  refine reached.invariant (fun _ _ stored => by cases stored) ?_
  intro w c w' reached all fit taken n r now deleting
  cases (step_happens reached.lawful taken).stored reached.lawful now with
  | same stored => exact all n _ stored deleting
  | moved _ _ stored move => exact move.deleted_open deleting (all n _ stored deleting)
  | pinned _ stored => exact (all n _ stored deleting :)
  | @deleted r asked stored =>
    subst asked
    exact (deletesOpen_open fit stored :)
  | born => rfl

theorem Happens.gone (happens : Happens w c w') (stored : w.reshard n = some r)
    (gone : w'.reshard n = none) :
    (r.deleting = true ∨ c = .deleteReshard n) ∧ w'.shards = w.shards ∧ w'.nodes = w.nodes := by
  have stays : ∀ {m : String} {new : Reshard}, (w.storeReshard m (some new)).reshard n ≠ none := by
    intro m new
    rw [World.reshard_storeReshard]
    split
    · exact Option.some_ne_none _
    · rw [stored]
      exact Option.some_ne_none _
  have present : w.reshard n ≠ none := by simp [stored]
  cases happens with
  | @acted m _ t _ _ after _ running _ _ _ acted =>
    replace gone : after.reshard n = none := gone
    generalize t.pass.next _ _ = q at acted
    cases acted with
    | unpinned _ found _ _ dying =>
      rw [World.reshard_storeReshard] at gone
      split at gone
      · rename_i here
        cases stored.symm.trans (here ▸ found)
        exact ⟨.inl dying, rfl, rfl⟩
      · exact absurd gone present
    | moved | movedUnknown | pinned | pinnedUnknown => exact absurd gone stays
    | _ => exact absurd gone present
  | @retagged m c old new compiles found retags =>
    replace gone : (w.storeReshard m new).reshard n = none := gone
    by_cases here : n = m
    · subst here
      cases stored.symm.trans found
      refine ⟨?_, rfl, rfl⟩
      cases retags with
      | tagged kept =>
        rcases kept with ⟨-, dying⟩ | ⟨finalizers, rfl⟩
        · exact .inl dying
        · exact absurd gone stays
      | deleted => exact .inr rfl
      | touched => exact absurd gone stays
    · rw [World.reshard_storeReshard, if_neg here] at gone
      exact absurd gone present
  | @born name uid spec =>
    rw [World.reshard_storeReshard] at gone
    split at gone
    · cases gone
    · exact absurd gone present
  | _ => exact absurd gone present

/-- A reshard that goes takes no serving shard with it, and no node of one. -/
theorem deletion_spares_serving (reached : ReachedUnder deletesOpen w) (fit : deletesOpen w c = true)
    (taken : step w c = some w') (stored : w.reshard n = some r) (gone : w'.reshard n = none)
    (found : w'.shard s = some x) (serving : x.serving = true) :
    x.controller ≠ some r.uid ∧ w'.nodes x.nodeRef ≠ some (some r.uid) := by
  have lawful := reached.reached.lawful
  obtain ⟨cause, shards, nodes⟩ := (step_happens lawful taken).gone stored gone
  have open_ : r.status.switchCommitted = false := by
    rcases cause with dying | rfl
    · exact reached.deletedOpen n r stored dying
    · exact deletesOpen_open fit stored
  replace found : w.shard s = some x := (congrArg (fun shards => (shards s).current) shards).symm.trans found
  have other : x.controller ≠ some r.uid := fun owner =>
    absurd (reached.reached.switches.serving found serving owner n r stored rfl) (by simp [open_])
  refine ⟨other, fun node => other ?_⟩
  exact reached.reached.owned.lodged stored found (nodes ▸ node)

/-- The routing controller is about to remove the last finalizer of the split. -/
def unpinning (shards : List (String × Nat)) (version : Nat) : List Choice :=
  .compile mainCluster 1 :: ([.versions shards, .missing, .version 0, .versions [("split", version)]] : List Reply).map
    (.advanceCompile "main")

def splitDeletedOpen : List Choice :=
  splitCleaned ++ [.advance "split" .done, .stop "split"] ++
    unpinning [("main-min-max", 2), ("main-min-80", 1), ("main-80-max", 1)] 15

set_option maxRecDepth 100000 in
theorem splitDeletedOpen_ends : (runUnder deletesOpen {} splitDeletedOpen).any (fun w => (w.reshard "split").isSome &&
    (step w (.advanceCompile "main" .done)).any fun w' => (w'.reshard "split").isNone &&
      (w'.shard "main-min-max").any (·.serving)) = true := by
  decide +kernel

theorem deletion_spares_serving_split : ∃ w w' r x, ReachedUnder deletesOpen w ∧
    step w (.advanceCompile "main" .done) = some w' ∧ w.reshard "split" = some r ∧ w'.reshard "split" = none ∧
    w'.shard "main-min-max" = some x ∧ x.serving = true ∧ x.controller ≠ some r.uid ∧
    w'.nodes x.nodeRef ≠ some (some r.uid) := by
  obtain ⟨w, reached, holds⟩ := ReachedUnder.of_run splitDeletedOpen_ends
  simp only [Bool.and_eq_true, Option.isSome_iff_exists] at holds
  obtain ⟨⟨r, stored⟩, holds⟩ := holds
  obtain ⟨w', taken, holds⟩ := exists_of_any holds
  obtain ⟨gone, holds⟩ := Bool.and_eq_true_iff.mp holds
  replace gone := Option.isNone_iff_eq_none.mp gone
  obtain ⟨x, found, serving⟩ := exists_of_any holds
  exact ⟨w, w', r, x, reached, taken, stored, gone, found, serving,
    deletion_spares_serving reached rfl taken stored gone found serving⟩

def splitDeletedSwitched : List Choice :=
  splitWithdrawing ++ [.advance "split" .done, .stop "split", .deleteReshard "split"] ++
  reconciled "split" [.version 15, .version 3, .done] ++
  unpinning [("main-min-max", 3), ("main-min-80", 2), ("main-80-max", 2)] 16

set_option maxRecDepth 100000 in
theorem splitDeletedSwitched_ends : (run {} splitDeletedSwitched).any (fun w => (w.reshard "split").any fun r =>
    (step w (.advanceCompile "main" .done)).any fun w' => (w'.reshard "split").isNone &&
      (w'.shard "main-min-80").any fun x => x.serving && x.controller == some r.uid) = true := by
  decide +kernel

/-- A switched reshard that goes still controls the targets that serve. -/
theorem deleted_switch_takes_targets : ∃ w w' r x, Reached w ∧ step w (.advanceCompile "main" .done) = some w' ∧
    w.reshard "split" = some r ∧ w'.reshard "split" = none ∧ w'.shard "main-min-80" = some x ∧ x.serving = true ∧
    x.controller = some r.uid := by
  obtain ⟨w, reached, holds⟩ := Reached.of_run splitDeletedSwitched_ends
  obtain ⟨r, stored, holds⟩ := exists_of_any holds
  obtain ⟨w', taken, holds⟩ := exists_of_any holds
  obtain ⟨gone, holds⟩ := Bool.and_eq_true_iff.mp holds
  obtain ⟨x, found, holds⟩ := exists_of_any holds
  obtain ⟨serving, own⟩ := Bool.and_eq_true_iff.mp holds
  exact ⟨w, w', r, x, reached, taken, stored, Option.isNone_iff_eq_none.mp gone, found, serving, beq_iff_eq.mp own⟩

end PgShard.Operator
