import PgShard.Operator.Claim

/-! A committed switch keeps its source to itself. -/

namespace PgShard.Operator

open Versioned

variable {n s : String} {v v' : Scene} {p q : Pass} {r : Reshard}

/-- The source of a committed switch is not put back into service. -/
def NoReserve (v v' : Scene) : Prop :=
  ∀ x y, v.source = some x → v'.source = some y → x.serving = false → y.serving = true → ¬ v.committed

/-- A committed switch has its source claimed or out of service. -/
def Exclusive (n : String) (v : Scene) : Prop :=
  v.committed → ∃ x, v.source = some x ∧ (x.claim = n ∨ x.claim = "" ∧ x.serving = false)

theorem Rooted.pinned_source (rooted : Rooted n s v) {x : Shard} (known : v.Knows r) (claimed : v.claimed)
    (stored : v.source = some x) : r.status.sourceShardUID = x.uid := by
  obtain ⟨y, stored', uid⟩ := rooted.pinned known (rooted.claimant known claimed)
  cases stored.symm.trans stored'
  exact uid.symm

theorem Holding.commits (holding : Holding n v) (rooted : Rooted n s v) {h : Copy Reshard} {status : ReshardStatus}
    (running : v.pass = some p) (stored : v.stored = some h.obj) (move : Move p h.obj status)
    (switched : status.switchCommitted = true) (open_ : h.obj.status.switchCommitted = false) :
    ∃ x, v.source = some x ∧ x.claim = n := by
  rcases move.commits switched with before | ⟨phase, alive, -, -, -, -, kept⟩
  · exact absurd before (by simp [open_])
  · refine holding.owns rooted stored phase open_ alive fun q running' => ?_
    cases running.symm.trans running'
    exact kept

theorem Exclusive.edited (exclusive : Exclusive n v) (sound : Sound n v) (rooted : Rooted n s v) {h : Copy Reshard}
    {old new : Shard} (committed : v.committed) (running : v.pass = some p) (free : p.stuck = false)
    (held : p.held = some h) (source : v.source = some old) (edit : ShardEdit p h.obj old new)
    (hidden : old.serving = false → new.serving = true → ¬ v.committed) :
    new.claim = n ∨ new.claim = "" ∧ new.serving = false := by
  have known := v.knows_of_held running free held
  obtain ⟨x, stored, state⟩ := exclusive committed
  cases source.symm.trans stored
  cases edit with
  | claim => exact .inl (sound.named running)
  | release _ _ _ out =>
    have pinned := rooted.pinned_source known (rooted.switched committed) source
    exact .inr ⟨rfl, (out ((sound.committed known).mp committed)).resolve_right fun other => other pinned⟩
  | hide => exact state.imp_right fun free => ⟨free.1, rfl⟩
  | serve => exact state.imp_right fun free => absurd committed (hidden free.2 rfl)

theorem Exclusive.moved (exclusive : Exclusive n v) (sound : Sound n v) (rooted : Rooted n s v)
    (holding : Holding n v) {h : Copy Reshard} {status : ReshardStatus} (running : v.pass = some p)
    (stored : v.stored = some h.obj) (move : Move p h.obj status)
    (committed : v.committed ∨ status.switchCommitted = true) :
    ∃ x, v.source = some x ∧ (x.claim = n ∨ x.claim = "" ∧ x.serving = false) := by
  by_cases before : v.committed
  · exact exclusive before
  · have open_ : h.obj.status.switchCommitted = false := by
      simpa using (sound.committed (.inl stored)).not.mp before
    obtain ⟨x, source, own⟩ := holding.commits rooted running stored move (committed.resolve_left before) open_
    exact ⟨x, source, .inl own⟩

theorem Exclusive.step (exclusive : Exclusive n v) (sound : Sound n v) (rooted : Rooted n s v)
    (holding : Holding n v) (named : n ≠ "") (hidden : NoReserve v v') (step : Scene.Step n s v v') :
    Exclusive n v' := by
  intro committed
  cases step with
  | own running deed =>
    cases deed with
    | moved _ _ _ stored _ move | movedUnknown _ _ stored _ move =>
      exact exclusive.moved sound rooted holding running stored move committed
    | edited free held source edit =>
      refine ⟨_, rfl, exclusive.edited sound rooted committed running free held source edit ?_⟩
      exact fun out back => hidden _ _ source rfl out back
    | _ => exact exclusive committed
  | appeared absent =>
    obtain ⟨x, stored, -⟩ := exclusive committed
    cases absent.symm.trans stored
  | changed source _ claim serving =>
    obtain ⟨x, stored, state⟩ := exclusive committed
    cases source.symm.trans stored
    refine ⟨_, rfl, state.imp claim.trans fun free => ⟨claim.trans free.1, ?_⟩⟩
    exact Bool.eq_false_iff.mpr fun back => absurd (serving back) (by simp [free.2])
  | taken source free serving =>
    obtain ⟨x, stored, state⟩ := exclusive committed
    cases source.symm.trans stored
    rcases state with own | ⟨-, out⟩
    · exact absurd (own.symm.trans free) named
    · exact absurd serving (by simp [out])
  | givenBack source other =>
    obtain ⟨x, stored, state⟩ := exclusive committed
    cases source.symm.trans stored
    exact ⟨_, rfl, .inr ⟨rfl, (state.resolve_left other).2⟩⟩
  | served source =>
    obtain ⟨x, stored, state⟩ := exclusive committed
    cases source.symm.trans stored
    exact ⟨_, rfl, state.imp_right fun free => absurd committed (hidden _ _ source rfl free.2 rfl)⟩
  | _ => exact exclusive committed

end PgShard.Operator
