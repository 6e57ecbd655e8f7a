import PgShard.Operator.Committed
import PgShard.Operator.Ownership

/-! What a failed cutover leaves behind. -/

namespace PgShard.Operator

open Versioned

variable {status : ReshardStatus}

variable {n s : String} {v v' : Scene} {w w' after : World} {p q : Pass} {r : Reshard} {c : Choice}

/-! ## A reshard on its way is well formed -/

/-- The phases between the start of the workflows and the commit. -/
def ReshardPhase.underway (phase : ReshardPhase) : Prop :=
  phase = .catchingUp ∨ phase = .readyToCutover ∨ phase = .cuttingOver

/-- What later phases rely on of the reshard's own record. -/
structure Reshard.Formed (r : Reshard) : Prop where
  ranged : r.status.phase = .provisioningTargets ∨ r.status.phase = .seeding ∨ r.status.phase.underway → r.Ranged
  named : r.status.phase = .seeding ∨ r.status.phase.underway →
    r.status.targetShards = targetNames r.spec.clusterRef r.spec
  pinned : r.status.phase.underway → r.status.seedTablesPinned = true ∧ publicationFits r = true

theorem publicationFits_same {r r' : Reshard} (fits : publicationFits r = true) (name : r'.name = r.name)
    (uid : r'.uid = r.uid) : publicationFits r' = true := by
  have same : seedPublication r' = seedPublication r := by
    unfold seedPublication
    rw [name, uid]
  unfold publicationFits at fits ⊢
  rw [same]
  exact fits

theorem Reshard.Formed.later (formed : r.Formed) (underway : r.status.phase.underway)
    (targets : status.targetShards = r.status.targetShards)
    (tables : status.seedTablesPinned = r.status.seedTablesPinned) : ({ r with status } : Reshard).Formed where
  ranged _ := formed.ranged (.inr (.inr underway))
  named _ := targets.trans (formed.named (.inr underway))
  pinned _ := ⟨tables.trans (formed.pinned underway).1, publicationFits_same (formed.pinned underway).2 rfl rfl⟩

theorem Reshard.Formed.still (formed : r.Formed) (phase : status.phase = r.status.phase)
    (targets : status.targetShards = r.status.targetShards)
    (tables : r.status.seedTablesPinned = true → status.seedTablesPinned = true) :
    ({ r with status } : Reshard).Formed where
  ranged in_ := formed.ranged (phase ▸ in_)
  named in_ := targets.trans (formed.named (phase ▸ in_))
  pinned in_ := ⟨tables (formed.pinned (phase ▸ in_)).1,
    publicationFits_same (formed.pinned (phase ▸ in_)).2 rfl rfl⟩

theorem Reshard.Formed.elsewhere (unranged : status.phase ≠ .provisioningTargets)
    (unseeded : status.phase ≠ .seeding) (idle : ¬ status.phase.underway) : ({ r with status } : Reshard).Formed where
  ranged in_ := in_.elim (absurd · unranged) (·.elim (absurd · unseeded) (absurd · idle))
  named in_ := in_.elim (absurd · unseeded) (absurd · idle)
  pinned in_ := absurd in_ idle

theorem Move.formed (move : Move p r status) (formed : r.Formed) :
    ({ r with status } : Reshard).Formed := by
  cases move with
  | await | failed | switched => exact .elsewhere nofun nofun (by simp [ReshardPhase.underway])
  | validated conditions early alive held named fit partition read =>
    have ranged := Move.ranged (.validated conditions early alive held named fit partition read) rfl
      fun phase => formed.ranged (.inl phase)
    exact ⟨fun _ => ranged, fun in_ => by simp [ReshardPhase.underway] at in_,
      fun in_ => by simp [ReshardPhase.underway] at in_⟩
  | provisioned _ phase _ named =>
    refine ⟨fun _ => formed.ranged (.inl phase), fun _ => ?_, fun in_ => by simp [ReshardPhase.underway] at in_⟩
    rw [named]
  | pinned _ _ phase =>
    exact ⟨fun _ => formed.ranged (.inr (.inl phase)), fun _ => formed.named (.inl phase), fun in_ => by
      simp [phase, ReshardPhase.underway] at in_⟩
  | streaming _ phase pinned fits =>
    exact ⟨fun _ => formed.ranged (.inr (.inl phase)), fun _ => formed.named (.inl phase), fun _ =>
      ⟨pinned, publicationFits_same fits rfl rfl⟩⟩
  | caughtUp _ phase => exact formed.later (.inl phase) rfl rfl
  | gate _ phase => exact formed.later (.inr (.inl phase)) rfl rfl
  | rolledBack _ phase => exact formed.later (.inr (.inr phase)) rfl rfl
  | _ => exact formed.still rfl rfl id

/-- The cluster a pass has read is the one its reshard names. -/
def Pass.Clustered : Pass → Prop :=
  Pass.Read (·.cluster) fun spec cluster => cluster.name = spec.clusterRef

/-- Every version of every reshard is well formed, and passes know the cluster their
reshard names. -/
structure AllFormed (w : World) : Prop where
  entries : ∀ {n i r}, (w.reshards n).entry i = some r → r.Formed
  clusters : ∀ n t, w.threads n = some t → t.pass.Clustered

theorem Stored.formed (stored : Stored w c n r) (all : AllFormed w) : r.Formed := by
  cases stored with
  | same stored => exact all.entries stored
  | moved _ _ stored move => exact move.formed (all.entries stored)
  | pinned _ stored | deleted _ stored =>
    have formed := all.entries stored
    exact ⟨formed.ranged, formed.named, fun in_ => ⟨(formed.pinned in_).1,
      publicationFits_same (formed.pinned in_).2 rfl rfl⟩⟩
  | born => exact ⟨by simp [ReshardPhase.underway], by simp [ReshardPhase.underway], by simp [ReshardPhase.underway]⟩

@[simp] theorem Pass.wroteShard_cluster (p : Pass) (x : Copy Shard) (answer : Wrote) :
    (p.wroteShard x answer).cluster = p.cluster := by
  cases answer <;> rfl

theorem Acted.clustered (acted : Acted w p after q) (clustered : p.Clustered) : q.Clustered := by
  refine Pass.Read.acted clustered acted ?_
  cases acted with
  | heard cluster rejected named =>
    rcases named with same | ⟨h, c, held, name, found⟩
    · exact .inl same
    · exact .inr ⟨h, c, held, found, name⟩
  | madeNode held _ _ _ _ known | unpinned _ _ _ known => cases known <;> exact .inl rfl
  | edited | tried => exact .inl (by simp)
  | _ => exact .inl rfl

theorem AllFormed.step (all : AllFormed w) (lawful : Lawful w) (happens : Happens w c w') : AllFormed w' where
  entries found := by
    rcases happens.entry found with ⟨j, old⟩ | now
    · exact all.entries old
    · exact (happens.stored lawful now).formed all
  clusters := happens.passes (fun _ => Pass.Clustered) all.clusters (fun _ => ⟨fun _ => rfl, nofun⟩)
    (fun _ _ _ => id) fun _ _ _ _ _ _ acted => acted.clustered

theorem Reached.formed (reached : Reached w) : AllFormed w :=
  reached.invariant ⟨fun found => (by cases found), fun _ _ running => (by cases running)⟩
    fun _ _ _ reached all _ taken => all.step reached.lawful (step_happens reached.lawful taken)

theorem AllFormed.not_malformed (all : AllFormed w) (lawful : Lawful w) {t : Thread} {h : Copy Reshard}
    (running : w.threads n = some t) (held : t.pass.held = some h) (underway : h.obj.status.phase.underway) :
    ¬ Malformed t.pass h.obj := by
  have formed := all.entries ((lawful.thread running).2.2.held h held).1
  have named := formed.named (.inr underway)
  obtain ⟨pinned, fits⟩ := formed.pinned underway
  rintro (early | phase | unfit | ⟨-, unpinned⟩ | ⟨cluster, read, other⟩ | length | ⟨tr, member, e, refused⟩)
  · rcases underway with phase | phase | phase <;> simp [phase, ReshardPhase.early] at early
  · rcases underway with phase' | phase' | phase' <;> cases phase.symm.trans phase'
  · exact unfit fits
  · exact unpinned pinned
  · rw [(all.clusters n t running).known held read] at other
    exact other named
  · exact length (by simp [named, targetNames])
  · obtain ⟨range, parsed⟩ := formed.ranged (.inr (.inr underway)) tr member
    cases refused.symm.trans parsed

/-! ## The claim, once taken -/

theorem Scene.Step.claim_kept {x : Shard} (step : Scene.Step n s v v') (named : n ≠ "") (source : v.source = some x)
    (own : x.claim = n) : (∃ y, v'.source = some y ∧ y.claim = n) ∨
      ∃ p h, v.pass = some p ∧ p.stuck = false ∧ p.held = some h ∧ v'.stored = v.stored ∧
        (h.obj.status.switchCommitted = true ∨ h.obj.deleting = true ∨ Tripped p h.obj ∨ Malformed p h.obj) ∧
        (h.obj.status.switchCommitted = false →
          h.obj.status.sourceFenced = false ∨ h.obj.status.sourceShardUID ≠ x.uid) := by
  have same : v'.source = v.source → ∃ y, v'.source = some y ∧ y.claim = n := fun same => ⟨x, same.trans source, own⟩
  cases step with
  | own running deed =>
    cases deed with
    | edited free held stored edit =>
      cases source.symm.trans stored
      cases edit with
      | claim _ _ _ _ unclaimed => exact absurd (own.symm.trans unclaimed) named
      | release _ _ cause _ unowed => exact .inr ⟨_, _, running, free, held, rfl, cause, unowed⟩
      | hide | serve => exact .inl ⟨_, rfl, own⟩
    | _ => exact .inl (same rfl)
  | appeared absent => cases absent.symm.trans source
  | changed stored _ claim =>
    cases source.symm.trans stored
    exact .inl ⟨_, rfl, claim.trans own⟩
  | taken stored free =>
    cases source.symm.trans stored
    exact absurd (own.symm.trans free) named
  | givenBack stored other =>
    cases source.symm.trans stored
    exact absurd own other
  | served stored =>
    cases source.symm.trans stored
    exact .inl ⟨_, rfl, own⟩
  | _ => exact .inl (same rfl)

theorem Scene.Step.fence_owner {f : Fence} (step : Scene.Step n s v v') (fence : v'.database.fence = some f) :
    (∃ g, v.database.fence = some g ∧ g.owner = f.owner) ∨
      (∃ p h, v.pass = some p ∧ p.stuck = false ∧ p.held = some h ∧ p.unfenced = false ∧ p.dropped = false ∧
        Freezing h.obj s ∧ f.owner = h.obj.uid ∧ v'.stored = v.stored ∧ v'.source = v.source) ∨
      ∀ r, v'.stored = some r → r.uid ≠ f.owner := by
  have same : v.database.fence = some f → (∃ g, v.database.fence = some g ∧ g.owner = f.owner) := fun stands => ⟨f, stands, rfl⟩
  cases step with
  | own running deed =>
    cases deed with
    | fenced free held kept freezing =>
      cases fence
      exact .inr (.inl ⟨_, _, running, free, held, kept.1, kept.2, freezing, rfl, rfl, rfl⟩)
    | lifted => cases fence
    | _ => exact .inl (same fence)
  | fencedBy other =>
    cases fence
    exact .inr (.inr other)
  | liftedBy => cases fence
  | _ => exact .inl (same fence)

/-- A pass of the reshard that holds the claim has no reason to fail. -/
def Unhindered (n : String) (v : Scene) : Prop :=
  ∀ p h x, v.pass = some p → p.held = some h → v.source = some x → x.claim = n →
    h.obj.status.switchCommitted = false → h.obj.status.phase.underway → ¬ Tripped p h.obj ∧ ¬ Malformed p h.obj

/-- A reshard that has claimed its source stays underway and keeps the claim; only
such a one has a gate or a fence. -/
structure Claiming (n : String) (v : Scene) : Prop where
  underway : ∀ {r}, v.stored = some r → v.claimed → r.status.switchCommitted = false → r.status.phase.underway
  kept : ∀ {r}, v.stored = some r → v.claimed → r.status.switchCommitted = false → r.deleting = false →
    ∃ x, v.source = some x ∧ x.claim = n
  gated : ∀ {r}, v.Knows r → r.status.cutoverGateDeadline ≠ none → v.claimed
  fenced : ∀ {r f}, v.stored = some r → v.database.fence = some f → f.owner = r.uid → v.claimed

theorem Move.underway (move : Move p r status) (before : r.status.phase.underway)
    (open_ : status.switchCommitted = false) (unfailed : status.phase ≠ .failed) : status.phase.underway := by
  have late : r.status.phase.early = false := by rcases before with phase | phase | phase <;> simp [phase, ReshardPhase.early]
  cases move with
  | await _ early | validated _ early => cases early.symm.trans late
  | provisioned _ phase => simp [phase, ReshardPhase.underway] at before
  | streaming | rolledBack => exact .inl rfl
  | caughtUp => exact .inr (.inl rfl)
  | gate => exact .inr (.inr rfl)
  | failed => exact absurd rfl unfailed
  | switched _ _ committed => cases committed.symm.trans open_
  | _ => exact before

theorem Move.fails (move : Move p r status) (failed : status.phase = .failed) :
    r.status.phase = .failed ∨ r.deleting = false ∧ (Tripped p r ∨ Malformed p r) := by
  cases move with
  | failed _ alive cause => exact .inr ⟨alive, cause⟩
  | await | validated | provisioned | streaming | caughtUp | gate | rolledBack | switched => cases failed
  | _ => exact .inl failed

theorem Claiming.unfailed (claiming : Claiming n v) (unhindered : Unhindered n v) {h : Copy Reshard}
    (running : v.pass = some p) (held : p.held = some h) (stored : v.stored = some h.obj)
    (move : Move p h.obj status) (claimed : v.claimed) (open_ : h.obj.status.switchCommitted = false) :
    status.phase ≠ .failed := by
  have underway := claiming.underway stored claimed open_
  intro failed
  rcases move.fails failed with before | ⟨alive, cause⟩
  · rcases underway with phase | phase | phase <;> cases phase.symm.trans before
  · obtain ⟨x, source, own⟩ := claiming.kept stored claimed open_ alive
    obtain ⟨untripped, formed⟩ := unhindered p h x running held source own open_ underway
    exact cause.elim untripped formed

theorem Move.still_open (move : Move p r status) (open_ : status.switchCommitted = false) :
    r.status.switchCommitted = false :=
  Bool.eq_false_iff.mpr fun committed => by simp [move.keeps_commit committed] at open_

theorem Move.gates (move : Move p r status) (gated : status.cutoverGateDeadline ≠ none) :
    r.status.cutoverGateDeadline ≠ none ∨
      ∃ source ∈ p.shards, source.obj.name = r.spec.sourceShard ∧ source.obj.claim = p.name := by
  cases move with
  | gate _ _ _ _ held named claimed => exact .inr ⟨_, held, named, claimed⟩
  | rolledBack | switched | ungated => exact absurd rfl gated
  | _ => exact .inl gated

theorem Claiming.underway_step (claiming : Claiming n v) (sound : Sound n v) (rooted : Rooted n s v) (named : n ≠ "")
    (unhindered : Unhindered n v) (step : Scene.Step n s v v') (stored : v'.stored = some r) (claimed : v'.claimed)
    (open_ : r.status.switchCommitted = false) : r.status.phase.underway := by
  rcases rooted.claimed_cases step named claimed with before | ⟨p, h, _, running, free, held, ready, same, -⟩
  · cases step.stored stored with
    | kept old _ status => exact status ▸ claiming.underway old before (status ▸ open_)
    | moved running free held old move new =>
      subst new
      have open_' := move.still_open open_
      exact move.underway (claiming.underway old before open_') open_
        (claiming.unfailed unhindered running held old move before open_')
    | born _ _ unclaimed => exact absurd claimed unclaimed
  · obtain ⟨-, -, status, -⟩ := sound.same running free held (same ▸ stored)
    exact .inr (.inl (status ▸ ready))

theorem Claiming.kept_step (claiming : Claiming n v) (sound : Sound n v) (rooted : Rooted n s v) (named : n ≠ "")
    (unhindered : Unhindered n v) (step : Scene.Step n s v v') (stored : v'.stored = some r) (claimed : v'.claimed)
    (open_ : r.status.switchCommitted = false) (alive : r.deleting = false) : ∃ x, v'.source = some x ∧ x.claim = n := by
  rcases rooted.claimed_cases step named claimed with before | ⟨p, h, y, running, -, -, -, -, source, own⟩
  · have held : ∀ {old}, v.stored = some old → old.status.switchCommitted = false → old.deleting = false →
        ∃ x, v.source = some x ∧ x.claim = n := fun old open_ alive => claiming.kept old before open_ alive
    -- the reshard was open and alive before the step
    obtain ⟨old, stored', open_', alive'⟩ : ∃ old, v.stored = some old ∧ old.status.switchCommitted = false ∧
        old.deleting = false := by
      cases step.stored stored with
      | @kept old stored' _ status deleting =>
        exact ⟨old, stored', status ▸ open_, Bool.eq_false_iff.mpr fun gone => by simp [deleting gone] at alive⟩
      | moved _ _ _ stored' move new =>
        subst new
        exact ⟨_, stored', move.still_open open_, alive⟩
      | born _ _ unclaimed => exact absurd claimed unclaimed
    obtain ⟨x, source, own⟩ := held stored' open_' alive'
    rcases step.claim_kept named source own with kept | ⟨p, h, running, free, held, -, cause, -⟩
    · exact kept
    · obtain ⟨-, -, status, deleting⟩ := sound.same running free held stored'
      have underway := claiming.underway stored' before open_'
      rw [status] at open_' underway
      obtain ⟨untripped, formed⟩ := unhindered p h x running held source own open_' underway
      rcases cause with committed | gone | tripped | malformed
      · cases committed.symm.trans open_'
      · cases alive'.symm.trans (deleting gone)
      · exact absurd tripped untripped
      · exact absurd malformed formed
  · exact ⟨y, source, own.trans (sound.named running)⟩

theorem Claiming.step (claiming : Claiming n v) (sound : Sound n v) (rooted : Rooted n s v) (named : n ≠ "")
    (unhindered : Unhindered n v) (step : Scene.Step n s v v') : Claiming n v' where
  underway := claiming.underway_step sound rooted named unhindered step
  kept := claiming.kept_step sound rooted named unhindered step
  gated known gated := by
    cases step.origin known with
    | kept old _ _ status => exact step.claimed_kept (claiming.gated old (status ▸ gated))
    | moved running free held old here move =>
      rcases move.gates gated with before | ⟨source, member, source_, claim⟩
      · exact step.claimed_kept (claiming.gated (.inl old) before)
      · exact step.claimed_kept ((rooted.copies running member (source_.trans here)).2 (claim.trans (sound.named running)))
    | born fresh =>
      subst fresh
      exact absurd rfl gated
  fenced stored fence own := by
    rcases step.fence_owner fence with ⟨g, before, owner⟩ | ⟨p, h, running, free, held, -, -, freezing, -⟩ | other
    · cases step.stored stored with
      | kept old uid => exact step.claimed_kept (claiming.fenced old before ((owner.trans own).trans uid))
      | moved _ _ _ old _ new =>
        subst new
        exact step.claimed_kept (claiming.fenced old before (owner.trans own))
      | born new _ _ unowned =>
        subst new
        exact absurd own (unowned _ fence)
    · exact step.claimed_kept (rooted.cutting (v.knows_of_held running free held) freezing.phase)
    · exact absurd own.symm (other _ stored)

/-! ## Runs in which nothing fails once claimed -/

def tripped (p : Pass) (r : Reshard) : Bool :=
  p.cluster.any (fun c => r.status.clusterUID == "" || r.status.clusterUID != c.uid) ||
  p.shards.any (fun x => x.obj.name == r.spec.sourceShard && (sourceLost r x.obj).isSome) ||
  p.shards.any (fun x => (List.range r.status.targetShards.length).any fun i =>
    r.status.targetShards[i]? == some x.obj.name && (foreignTarget r x.obj i).isSome) ||
  p.rejected

theorem tripped_of_prop (reason : Tripped p r) : tripped p r = true := by
  rcases reason with ⟨c, read, other⟩ | ⟨x, held, named, lost⟩ | ⟨x, held, i, target, foreign⟩ | rejected
  · simp [tripped, read, other]
  · have found : p.shards.any (fun x => x.obj.name == r.spec.sourceShard && (sourceLost r x.obj).isSome) = true :=
      List.any_eq_true.mpr ⟨x, held, by simp [named, lost]⟩
    simp [tripped, found]
  · have bound : i < r.status.targetShards.length := (List.getElem?_eq_some_iff.mp target).1
    have found : p.shards.any (fun x => (List.range r.status.targetShards.length).any fun i =>
        r.status.targetShards[i]? == some x.obj.name && (foreignTarget r x.obj i).isSome) = true :=
      List.any_eq_true.mpr ⟨x, held, List.any_eq_true.mpr ⟨i, List.mem_range.mpr bound, by simp [target, foreign]⟩⟩
    simp [tripped, found]
  · simp [tripped, rejected]

/-- No pass of an open reshard meets a reason to fail while the source carries the
reshard's claim. -/
def unhindered (w : World) : Bool :=
  w.names.all fun n => (w.threads n).all fun t => t.pass.held.all fun h =>
    (w.shard h.obj.spec.sourceShard).all fun x =>
      x.claim != n || h.obj.status.switchCommitted || !tripped t.pass h.obj

def unfailing (w : World) (c : Choice) : Bool :=
  selfFresh w c && nameNew w c && unhindered w && undelayed c

theorem World.unhindered_scene (reached : Reached w) (fit : unhindered w = true) (sourced : Sourced n s w) :
    Unhindered n (w.scene n s) := by
  intro p h x running held source own open_ underway
  obtain ⟨t, thread, rfl⟩ := Option.map_eq_some_iff.mp running
  have lawful := reached.lawful
  obtain ⟨named, -, genuine⟩ := lawful.thread thread
  have entry := (genuine.held h held).1
  rw [named] at entry
  refine ⟨fun reason => ?_, reached.formed.not_malformed lawful thread held underway⟩
  have source : w.shard h.obj.spec.sourceShard = some x := (sourced _ _ entry).symm ▸ source
  simp only [unhindered, List.all_eq_true] at fit
  have free := fit n (lawful.reshard entry).2.2.2
  simp [thread, held, source, own, open_, tripped_of_prop reason] at free

structure Unfailed (n s : String) (v : Scene) : Prop where
  sound : Sound n v
  rooted : Rooted n s v
  claiming : Claiming n v

def AllUnfailed (w : World) : Prop :=
  ∀ n s, n ≠ "" → Sourced n s w → Unfailed n s (w.scene n s)

theorem ReachedUnder.unfailed (reached : ReachedUnder unfailing w) : AllUnfailed w := by
  refine reached.invariant (fun n s _ _ => ?_) ?_
  · exact ⟨(Safe.start n s).sound, (Safe.start n s).rooted, fun stored => (by cases stored), fun stored => (by cases stored),
      fun known => (Scene.knows_empty known).elim, fun stored => (by cases stored)⟩
  · intro w c w' reached all fit taken n s named sourced
    simp only [unfailing, Bool.and_eq_true] at fit
    obtain ⟨⟨⟨fresh, new⟩, free⟩, prompt⟩ := fit
    have happens := step_happens reached.lawful taken
    replace sourced := sourced.before happens.extends
    obtain ⟨sound, rooted, claiming⟩ := all n s named sourced
    have step := happens.scene reached.lawful reached.authorised prompt (happens.freshSelf reached.lawful fresh)
      (happens.newNames reached.lawful new) named sourced
    exact ⟨sound.step step, rooted.step sound named step,
      claiming.step sound rooted named (World.unhindered_scene reached free sourced) step⟩

end PgShard.Operator
