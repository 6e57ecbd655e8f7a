import PgShard.Operator.Deletion
import PgShard.Operator.Drift

/-! What a reshard has settled stays settled. -/

namespace PgShard.Operator

open Versioned

variable {w w' : World} {n : String} {c : Choice} {p : Pass} {r r' s : Reshard} {status : ReshardStatus}

/-- A later version of a reshard. A new attempt falls back to catching up, no further;
within an attempt no phase comes back, and what a phase settles is not changed after it. -/
structure Advances (r r' : Reshard) : Prop where
  spec : r'.spec = r.spec
  attempt : r.status.cutoverAttempt ≤ r'.status.cutoverAttempt
  phase : r.status.cutoverAttempt = r'.status.cutoverAttempt → r.status.phase.ctorIdx ≤ r'.status.phase.ctorIdx
  floor : min ReshardPhase.catchingUp.ctorIdx r.status.phase.ctorIdx ≤ r'.status.phase.ctorIdx
  failed : r.status.phase = .failed → r'.status.phase = .failed
  committed : r.status.switchCommitted = true → r'.status.switchCommitted = true
  origin : ReshardPhase.validating.ctorIdx < r.status.phase.ctorIdx →
    r'.status.sourceShardUID = r.status.sourceShardUID ∧ r'.status.clusterUID = r.status.clusterUID
  targets : ReshardPhase.provisioningTargets.ctorIdx < r.status.phase.ctorIdx →
    r'.status.targetShards = r.status.targetShards
  tables : r.status.seedTablesPinned = true →
    r'.status.seedTablesPinned = true ∧ r'.status.seedTables = r.status.seedTables

theorem Advances.of_status (spec : r'.spec = r.spec) (status : r'.status = r.status) : Advances r r' := by
  constructor <;> simp [spec, status]

theorem ReshardPhase.early_le {phase : ReshardPhase} (early : phase.early = true) :
    phase.ctorIdx ≤ ReshardPhase.validating.ctorIdx ∧ phase ≠ .failed := by
  revert early
  cases phase <;> decide

theorem ReshardPhase.le_failed (phase : ReshardPhase) : phase.ctorIdx ≤ ReshardPhase.failed.ctorIdx := by
  cases phase <;> decide

theorem Move.advances (move : Move p r status) : Advances r { r with status } := by
  cases move with
  | await _ early | validated _ early =>
    obtain ⟨low, open_⟩ := ReshardPhase.early_le early
    constructor <;> simp_all [ReshardPhase.ctorIdx] <;> omega
  | failed =>
    have last := r.status.phase.le_failed
    constructor <;> simp_all [ReshardPhase.ctorIdx]
  | _ => constructor <;> simp_all [ReshardPhase.ctorIdx]

theorem Advances.trans (first : Advances r r') (second : Advances r' s) : Advances r s := by
  have floor := first.floor
  have floor' := second.floor
  refine ⟨second.spec.trans first.spec, first.attempt.trans second.attempt, fun same => ?_, ?_,
    fun failed => second.failed (first.failed failed), fun done => second.committed (first.committed done),
    fun late => ?_, fun late => ?_, fun pinned => ?_⟩
  · have := first.attempt
    have := second.attempt
    exact (first.phase (by omega)).trans (second.phase (by omega))
  · omega
  · obtain ⟨shard, cluster⟩ := first.origin late
    have late' : ReshardPhase.validating.ctorIdx < r'.status.phase.ctorIdx := by
      simp only [ReshardPhase.ctorIdx] at *
      omega
    obtain ⟨shard', cluster'⟩ := second.origin late'
    exact ⟨shard'.trans shard, cluster'.trans cluster⟩
  · have late' : ReshardPhase.provisioningTargets.ctorIdx < r'.status.phase.ctorIdx := by
      simp only [ReshardPhase.ctorIdx] at *
      omega
    exact (second.targets late').trans (first.targets late)
  · obtain ⟨still, same⟩ := first.tables pinned
    obtain ⟨still', same'⟩ := second.tables still
    exact ⟨still', same'.trans same⟩

/-- What every version stored under the name from now on has, if it is the same object. -/
theorem Advances.step (advances : ∀ s, w.reshard n = some s → s.uid = r.uid → Advances r s) (lawful : Lawful w)
    (known : w.freshUid r.uid = false) (happens : Happens w c w') (later : w'.reshard n = some s) (same : s.uid = r.uid) :
    Advances r s := by
  cases happens.stored lawful later with
  | same stored => exact advances _ stored same
  | moved _ _ stored move => exact (advances _ stored same).trans move.advances
  | pinned _ stored | deleted _ stored => exact (advances _ stored same).trans (.of_status rfl rfl)
  | born _ fresh =>
    cases same
    cases known.symm.trans fresh

theorem reshard_advances (reached : Reached w) (stored : w.reshard n = some r)
    (run : Runs.Under step (fun _ _ => true) w w') (later : w'.reshard n = some r') (same : r'.uid = r.uid) :
    Advances r r' := by
  -- the version at hand stays in the history, so that its UID is not given away again
  have kept : Reached w' ∧ (∃ i, (w'.reshards n).entry i = some r) ∧
      ∀ s, w'.reshard n = some s → s.uid = r.uid → Advances r s := by
    clear later same
    induction run with
    | start =>
      refine ⟨reached, ⟨_, stored⟩, fun s again _ => ?_⟩
      cases stored.symm.trans again
      exact .of_status rfl rfl
    | next _ _ taken ih =>
      obtain ⟨reached, ⟨i, held⟩, advances⟩ := ih
      have lawful := reached.lawful
      have happens := step_happens lawful taken
      refine ⟨.next reached rfl taken, ⟨i, ?_⟩, fun s now same =>
        Advances.step advances lawful (lawful.not_fresh held) happens now same⟩
      rcases happens.reshards n with same | ⟨_, grown⟩
      · exact same ▸ held
      · exact grown ▸ History.entry_push held
  exact kept.2.2 r' later same

theorem reshard_advances_split : ∃ w w' r r', Reached w ∧ step w (.advance "split" .done) = some w' ∧
    w.reshard "split" = some r ∧ r.status.switchCommitted = false ∧ w'.reshard "split" = some r' ∧
    r'.status.switchCommitted = true ∧ Advances r r' := by
  obtain ⟨w, reached, holds⟩ := ReachedUnder.of_run splitUndrifted_ends
  obtain ⟨r, w', r', stored, open_, taken, later, committed⟩ := World.writes_step holds
  have reached := reached.reached
  have same : r'.uid = r.uid := by
    cases (step_happens reached.lawful taken).stored reached.lawful later with
    | same again | moved _ _ again | pinned _ again | deleted _ again =>
      cases stored.symm.trans again
      rfl
    | born absent => cases stored.symm.trans absent
  exact ⟨w, w', r, r', reached, taken, stored, by simpa using open_, later, committed,
    reshard_advances reached stored (.next .start rfl taken) later same⟩

end PgShard.Operator
