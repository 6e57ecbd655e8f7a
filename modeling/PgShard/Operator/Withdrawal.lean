import PgShard.Operator.Stored
import PgShard.Operator.Committed

/-! When the gate of a committed switch is withdrawn. -/

namespace PgShard.Operator

open Versioned

variable {w w' after : World} {n : String} {c : Choice} {p q : Pass} {r r' : Reshard}

/-! ## What a pass has read of the routing -/

def Pass.Routed (w : World) : Pass → Prop :=
  Pass.Read (·.routing) fun spec routing => ∃ i, (w.routings spec.clusterRef).entry i = some routing

@[simp] theorem Pass.wroteShard_routing (p : Pass) (x : Copy Shard) (answer : Wrote) :
    (p.wroteShard x answer).routing = p.routing := by
  cases answer <;> rfl

theorem Acted.routed (acted : Acted w p after q) (routed : p.Routed w) : q.Routed w := by
  refine Pass.Read.acted routed acted ?_
  cases acted with
  | readRouting held stored => exact .inr ⟨_, _, held, rfl, _, stored⟩
  | madeNode held _ _ _ _ known | unpinned _ _ _ known => cases known <;> exact .inl rfl
  | edited | tried => exact .inl (by simp)
  | _ => exact .inl rfl

theorem Acted.routings (acted : Acted w p after q) : after.routings = w.routings := by
  cases acted <;> rfl

theorem Happens.routings (happens : Happens w c w') {name : String} {i : Nat} {spec : RoutingSpec}
    (stored : (w.routings name).entry i = some spec) : (w'.routings name).entry i = some spec := by
  cases happens with
  | acted _ _ _ _ acted => exact acted.routings ▸ stored
  | routed _ _ _ grows => exact grows name i spec stored
  | _ => exact stored

def AllRouted (w : World) : Prop :=
  ∀ n t, w.threads n = some t → t.pass.Routed w

theorem Reached.routed (reached : Reached w) : AllRouted w := by
  refine reached.invariant (fun _ _ running => by cases running) ?_
  intro w c w' reached all _ taken
  have happens := step_happens reached.lawful taken
  have grows : ∀ {p : Pass}, p.Routed w → p.Routed w' := fun routed => ⟨routed.unheld, fun held read =>
    (routed.known held read).imp fun _ stored => happens.routings stored⟩
  exact happens.passes Pass.Routed all (fun _ => ⟨fun _ => rfl, nofun⟩) (fun _ _ _ => grows)
    fun _ _ _ _ _ _ acted routed => grows (acted.routed routed)

/-! ## The gate -/

/-- No reshard is deleted between its commit and the withdrawal of its gate. -/
def deleteSettled (w : World) : Choice → Bool
  | .deleteReshard n => (w.reshard n).all fun r => !r.status.switchCommitted || r.status.cutoverGateDeadline.isNone
  | _ => true

/-- A committed reshard being deleted has no gate. -/
def Ungated (r : Reshard) : Prop :=
  r.status.switchCommitted = true → r.deleting = true → r.status.cutoverGateDeadline = none

theorem Move.ungated_kept {status : ReshardStatus} (move : Move p r status) (ungated : Ungated r) :
    Ungated { r with status } := by
  intro committed deleting
  cases move with
  | gate _ _ alive | commit _ _ alive => exact absurd (deleting.symm.trans alive) (by decide)
  | rolledBack | switched | ungated => rfl
  | _ => exact ungated committed deleting

theorem Stored.ungated (stored : Stored w c n r) (fit : deleteSettled w c = true)
    (before : ∀ r, w.reshard n = some r → Ungated r) : Ungated r := by
  cases stored with
  | same stored => exact before _ stored
  | moved _ _ stored move => exact move.ungated_kept (before _ stored)
  | @pinned r _ stored => exact (before r stored :)
  | @deleted r asked stored =>
    subst asked
    simp only [deleteSettled, stored, Option.all_some, Bool.or_eq_true, Bool.not_eq_true'] at fit
    intro committed _
    rcases fit with open_ | withdrawn
    · exact absurd (committed.symm.trans open_) (by decide)
    · exact Option.isNone_iff_eq_none.mp withdrawn
  | born =>
    intro committed
    cases committed

def AllUngated (w : World) : Prop :=
  ∀ n r, w.reshard n = some r → Ungated r

theorem ReachedUnder.ungated (reached : ReachedUnder deleteSettled w) : AllUngated w := by
  refine reached.invariant (fun _ _ stored => by cases stored) ?_
  intro w c w' reached all fit taken n r stored
  exact ((step_happens reached.lawful taken).stored reached.lawful stored).ungated fit (all n)

/-- A move that withdraws the gate of a committed switch has seen the switched set
in a routing, unless the reshard is being deleted. -/
theorem Move.withdraws {status : ReshardStatus} (move : Move p r status) (committed : r.status.switchCommitted = true)
    (gated : r.status.cutoverGateDeadline ≠ none) (withdrawn : status.cutoverGateDeadline = none) :
    r.deleting = true ∨ ∃ spec, p.routing = some spec ∧
      switchedSetCompiled spec r.spec.sourceShard r.status.targetShards = true := by
  cases move with
  | rolledBack _ _ uncommitted => exact absurd (committed.symm.trans uncommitted) (by decide)
  | switched _ _ _ read compiled => exact .inr ⟨_, read, compiled⟩
  | ungated deleting => exact .inl deleting
  | gate => exact absurd withdrawn (Option.some_ne_none _)
  | _ => exact absurd withdrawn gated

/-- The gate of a committed switch is withdrawn only after a routing stored for its
cluster listed the source as hidden and every target as serving. -/
theorem withdrawn_after_switched_set (reached : ReachedUnder deleteSettled w) (taken : step w c = some w')
    (stored : w.reshard n = some r) (committed : r.status.switchCommitted = true)
    (gated : r.status.cutoverGateDeadline ≠ none) (stored' : w'.reshard n = some r')
    (withdrawn : r'.status.cutoverGateDeadline = none) :
    ∃ i spec, (w.routings r.spec.clusterRef).entry i = some spec ∧
      switchedSetCompiled spec r.spec.sourceShard r.status.targetShards = true := by
  have lawful := reached.reached.lawful
  cases (step_happens lawful taken).stored lawful stored' with
  | same before | pinned _ before | deleted _ before =>
    cases stored.symm.trans before
    exact absurd withdrawn gated
  | @moved t h status running held before move =>
    cases stored.symm.trans before
    rcases move.withdraws committed gated withdrawn with deleting | ⟨spec, read, compiled⟩
    · exact absurd (reached.ungated n _ stored committed deleting) gated
    · obtain ⟨i, found⟩ := (reached.reached.routed n t running).known held read
      exact ⟨i, spec, found, compiled⟩
  | born absent => cases absent.symm.trans stored

/-- The pass after the commit: the targets serve, the source is hidden, and the
routing does not show it yet. -/
def splitFlipped : List Choice :=
  splitCommitted ++ .stop "split" :: reconciled "split" [.version 12, .cluster mainCluster, .version 1, .version 1, .done,
    .version 1, .done, .done, .version 0, .done]

def flipCompiled : List Choice :=
  compiled mainCluster [.versions [("main-min-max", 2), ("main-min-80", 2), ("main-80-max", 2)], .missing, .version 0,
    .versions [("split", 13)], .version 0, .done]

/-- The next pass sees the switched set compiled and is about to withdraw the gate. -/
def splitWithdrawing : List Choice :=
  splitFlipped ++ flipCompiled ++ begun "split" [.version 13, .cluster mainCluster, .version 2, .version 2, .version 2,
    .version 1, .done]

/-- The reshard is deleted instead, and its cleanup is about to clear the gate. -/
def splitDeletedFlipped : List Choice :=
  splitFlipped ++ .deleteReshard "split" :: begun "split" [.version 14, .version 2]

def Reshard.gatedSwitch (r : Reshard) : Bool :=
  r.status.switchCommitted && r.status.cutoverGateDeadline.isSome

set_option maxRecDepth 100000 in
theorem splitWithdrawing_ends : (runUnder deleteSettled {} splitWithdrawing).any
    (·.writes "split" (·.gatedSwitch) (·.status.cutoverGateDeadline.isNone)) = true := by
  decide +kernel

theorem withdrawn_after_switched_set_split : ∃ w r w' r' i spec, ReachedUnder deleteSettled w ∧
    step w (.advance "split" .done) = some w' ∧ w.reshard "split" = some r ∧ r.gatedSwitch = true ∧
    w'.reshard "split" = some r' ∧ r'.status.cutoverGateDeadline = none ∧
    (w.routings r.spec.clusterRef).entry i = some spec ∧
    switchedSetCompiled spec r.spec.sourceShard r.status.targetShards = true := by
  obtain ⟨w, reached, holds⟩ := ReachedUnder.of_run splitWithdrawing_ends
  obtain ⟨r, w', r', stored, gated, taken, stored', withdrawn⟩ := World.writes_step holds
  replace withdrawn := Option.isNone_iff_eq_none.mp withdrawn
  obtain ⟨committed, deadline⟩ := Bool.and_eq_true_iff.mp gated
  obtain ⟨i, spec, found, compiled⟩ := withdrawn_after_switched_set reached taken stored committed
    (Option.isSome_iff_ne_none.mp deadline) stored' withdrawn
  exact ⟨w, r, w', r', i, spec, reached, taken, stored, gated, stored', withdrawn, found, compiled⟩

set_option maxRecDepth 100000 in
theorem splitDeletedFlipped_ends : (run {} splitDeletedFlipped).any
    (fun w => w.writes "split" (fun r => r.gatedSwitch && (w.routings r.spec.clusterRef).entries.all fun spec =>
      spec.all (!switchedSetCompiled · r.spec.sourceShard r.status.targetShards))
      (·.status.cutoverGateDeadline.isNone)) = true := by
  decide +kernel

/-- A reshard deleted after the flip loses its gate although no routing has shown the
switched set. -/
theorem deleted_withdraws_early : ∃ w r w' r', Reached w ∧ step w (.advance "split" .done) = some w' ∧
    w.reshard "split" = some r ∧ r.gatedSwitch = true ∧ w'.reshard "split" = some r' ∧
    r'.status.cutoverGateDeadline = none ∧ ∀ i spec, (w.routings r.spec.clusterRef).entry i = some spec →
      switchedSetCompiled spec r.spec.sourceShard r.status.targetShards = false := by
  obtain ⟨w, reached, holds⟩ := Reached.of_run splitDeletedFlipped_ends
  obtain ⟨r, w', r', stored, holds, taken, stored', withdrawn⟩ := World.writes_step holds
  obtain ⟨gated, unseen⟩ := Bool.and_eq_true_iff.mp holds
  refine ⟨w, r, w', r', reached, taken, stored, gated, stored', Option.isNone_iff_eq_none.mp withdrawn, ?_⟩
  intro i spec found
  have := List.all_eq_true.mp unseen _ (History.mem_of_entry found)
  simpa using this

end PgShard.Operator
