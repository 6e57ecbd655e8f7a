import PgShard.Operator.Exclusive

/-! The fence around a cutover, which stands until the cutover is given up. -/

namespace PgShard.Operator

open Versioned

variable {status : ReshardStatus} {d lsn : Nat} {id : JournalId} {f : Fence}

variable {n s : String} {v v' : Scene} {p q : Pass} {r : Reshard}

/-- A cutover that can still commit. -/
structure Standing (r : Reshard) : Prop where
  phase : r.status.phase = .cuttingOver
  uncommitted : r.status.switchCommitted = false
  alive : r.deleting = false

/-- The phases in which barriers of the current attempt may exist. -/
def ReshardPhase.barred (phase : ReshardPhase) : Bool :=
  phase == .cuttingOver || phase == .failed || phase == .switchedForward

theorem ReshardPhase.barred_of_early {phase : ReshardPhase} (early : phase.early = true) : phase.barred = false := by
  cases phase <;> first | rfl | cases early

/-- The running pass has given up neither the fence nor the claim. -/
def Scene.Intact (v : Scene) : Prop :=
  ∀ p, v.pass = some p → p.unfenced = false ∧ p.dropped = false

def Scene.InTime (v : Scene) (deadline : Nat) : Prop :=
  v.now ≤ deadline ∨ ∃ p t, v.pass = some p ∧ p.clock = some t ∧ t ≤ deadline

/-- A pass that has lifted the fence ends only once its cutover is over or late. -/
def LiftSettled (v v' : Scene) : Prop :=
  ∀ p r, v.pass = some p → v'.pass = none → p.unfenced = true → v.stored = some r →
    r.deleting = true ∨ r.status.phase ≠ .cuttingOver ∨ ∃ d, r.status.cutoverGateDeadline = some d ∧ d < v.now

structure Fencing (v : Scene) : Prop where
  behind : ∀ {f}, v.database.fence = some f → f.since ≤ v.database.wal
  recorded : ∀ {r}, v.stored = some r → r.status.cutoverFrozenLSN ≠ 0 →
    (⟨r.uid, r.status.cutoverAttempt⟩, r.status.cutoverFrozenLSN) ∈ v.database.journals
  attempts : ∀ {r id lsn}, v.stored = some r → (id, lsn) ∈ v.database.journals → id.uid = r.uid →
    id.attempt < r.status.cutoverAttempt ∨ id.attempt = r.status.cutoverAttempt ∧ r.status.phase.barred = true
  barrier : ∀ {p lsn}, v.pass = some p → p.stuck = false → p.barrier = some lsn → lsn ≠ 0 →
    ∃ h, p.held = some h ∧ (⟨h.obj.uid, h.obj.status.cutoverAttempt⟩, lsn) ∈ v.database.journals
  raised : ∀ {p r}, v.pass = some p → p.stuck = false → p.fenced = true → v.Intact → v.stored = some r →
    Standing r → ∃ f, v.database.fence = some f
  guarded : ∀ {r lsn}, v.stored = some r → Standing r → v.Intact →
    (∀ d, r.status.cutoverGateDeadline = some d → v.InTime d) →
    (⟨r.uid, r.status.cutoverAttempt⟩, lsn) ∈ v.database.journals →
    ∃ f, v.database.fence = some f ∧ f.since < lsn
  frozen : ∀ {r}, v.stored = some r → r.status.switchCommitted = true →
    ∃ f, v.database.fence = some f ∧ f.since < r.status.cutoverFrozenLSN

/-! ## Moves and barriers -/

theorem Move.keeps_frozen (move : Move p r status)
    (committed : r.status.switchCommitted = true) : status.cutoverFrozenLSN = r.status.cutoverFrozenLSN := by
  cases move <;> simp_all

theorem Move.freezes (move : Move p r status) (frozen : status.cutoverFrozenLSN ≠ 0) :
    status.cutoverAttempt = r.status.cutoverAttempt ∧
      (status.cutoverFrozenLSN = r.status.cutoverFrozenLSN ∨ p.barrier = some status.cutoverFrozenLSN) := by
  cases move with
  | frozen _ _ _ emitted => exact ⟨rfl, .inr emitted⟩
  | rolledBack => exact absurd rfl frozen
  | _ => exact ⟨rfl, .inl rfl⟩

theorem Move.attempt (move : Move p r status) :
    status.cutoverAttempt = r.status.cutoverAttempt + 1 ∨ status.cutoverAttempt = r.status.cutoverAttempt ∧
      (r.status.phase.barred = true → status.phase.barred = true) := by
  cases move with
  | rolledBack => exact .inl rfl
  | await _ early | validated _ early =>
    exact .inr ⟨rfl, fun barred => absurd barred (by simp [ReshardPhase.barred_of_early early])⟩
  | _ => exact .inr ⟨rfl, by simp_all [ReshardPhase.barred]⟩

theorem Move.stands (move : Move p r status)
    (standing : Standing { r with status }) : status.cutoverAttempt = r.status.cutoverAttempt ∧
      (r.status.phase = .readyToCutover ∨
        Standing r ∧ status.cutoverGateDeadline = r.status.cutoverGateDeadline) := by
  obtain ⟨phase, uncommitted, alive⟩ := standing
  cases move with
  | gate _ ready => exact ⟨rfl, .inl ready⟩
  | commit => cases uncommitted
  | ungated deleting => exact absurd deleting (by simpa using alive)
  | hold | settled => exact ⟨rfl, .inr ⟨⟨phase, uncommitted, alive⟩, rfl⟩⟩
  | observed _ before | oweFence before | frozen _ before => exact ⟨rfl, .inr ⟨⟨before, uncommitted, alive⟩, rfl⟩⟩
  | pinned _ _ before => exact absurd (before.symm.trans phase) (by decide)
  | _ => cases phase

/-! ## What the pass may have given up, and the time -/

theorem Learns.intact {q : Pass} (learns : Learns n s v p q) (kept : q.unfenced = false ∧ q.dropped = false) :
    p.unfenced = false ∧ p.dropped = false := by
  cases learns with
  | liftTried => cases kept.1
  | tried _ _ refused =>
    rcases refused with rfl | rfl
    · exact kept
    · exact ⟨kept.1, (Bool.or_eq_false_iff.mp kept.2).1⟩
  | _ => exact kept

theorem Pass.wroteShard_intact {c : Copy Shard} {answer : Wrote}
    (kept : (p.wroteShard c answer).unfenced = false ∧ (p.wroteShard c answer).dropped = false) :
    p.unfenced = false ∧ p.dropped = false := by
  cases answer with
  | stored | failed => exact ⟨kept.1, (Bool.or_eq_false_iff.mp kept.2).1⟩
  | conflict => exact kept

theorem Deed.intact (deed : Deed n s v p v') (running : v.pass = some p) (intact : v'.Intact) : v.Intact := by
  intro q running'
  cases running.symm.trans running'
  obtain ⟨q, after, -⟩ := deed.pass running
  have kept := intact q after
  cases deed with
  | learned learns =>
    cases after
    exact learns.intact kept
  | pinnedUnknown =>
    cases running.symm.trans after
    exact kept
  | edited =>
    cases after
    exact Pass.wroteShard_intact kept
  | fenced _ _ _ _ known | emitted _ _ _ _ _ known =>
    cases after
    rcases known with rfl | ⟨_, rfl⟩ <;> exact kept
  | lifted =>
    cases after
    cases kept.1
  | _ =>
    cases after
    exact kept

theorem Learns.inTime {q : Pass} {t : Nat} (learns : Learns n s v p q) (running : v.pass = some p)
    (read : q.clock = some t) (bound : t ≤ d) : v.InTime d := by
  cases learns with
  | readClock =>
    cases read
    exact .inl bound
  | tried _ _ refused => rcases refused with rfl | rfl <;> exact .inr ⟨p, t, running, read, bound⟩
  | _ => exact .inr ⟨p, t, running, read, bound⟩

theorem Deed.inTime (deed : Deed n s v p v') (running : v.pass = some p) (inTime : v'.InTime d) :
    v.InTime d := by
  cases deed with
  | learned learns =>
    rcases inTime with early | ⟨_, t, ⟨⟩, read, bound⟩
    · exact .inl early
    · exact learns.inTime running read bound
  | moved =>
    rcases inTime with early | ⟨_, t, ⟨⟩, read, bound⟩
    · exact .inl early
    · cases read
  | edited _ _ _ _ known =>
    rcases inTime with early | ⟨_, t, ⟨⟩, read, bound⟩
    · exact .inl early
    · rcases known with ⟨_, rfl⟩ | rfl <;> exact .inr ⟨p, t, running, read, bound⟩
  | pinnedUnknown => exact inTime
  | fenced _ _ _ _ known | emitted _ _ _ _ _ known =>
    rcases inTime with early | ⟨_, t, ⟨⟩, read, bound⟩
    · exact .inl early
    · rcases known with rfl | ⟨_, rfl⟩ <;> exact .inr ⟨p, t, running, read, bound⟩
  | _ =>
    rcases inTime with early | ⟨_, t, ⟨⟩, read, bound⟩
    · exact .inl early
    · exact .inr ⟨p, t, running, read, bound⟩

theorem Scene.Step.inTime (step : Scene.Step n s v v') (inTime : v'.InTime d) : v.InTime d := by
  cases step with
  | own running deed => exact deed.inTime running inTime
  | began =>
    rcases inTime with early | ⟨_, t, ⟨⟩, read, bound⟩
    · exact .inl early
    · cases read
  | ended =>
    rcases inTime with early | ⟨_, t, ended, -⟩
    · exact .inl early
    · cases ended
  | ticked seconds =>
    rcases inTime with early | late
    · exact .inl (le_trans (Nat.le_add_right _ _) early)
    · exact .inr late
  | _ => exact inTime

/-! ## Where a stored reshard and a barrier come from -/

theorem Scene.Step.journals (step : Scene.Step n s v v')
    (member : (id, lsn) ∈ v.database.journals) : (id, lsn) ∈ v'.database.journals := by
  cases step with
  | own _ deed =>
    cases deed with
    | emitted => exact List.mem_cons_of_mem _ member
    | _ => exact member
  | journalledBy => exact List.mem_cons_of_mem _ member
  | _ => exact member

/-- How the stored reshard came to be what it is. -/
inductive Scene.Stored (n : String) (v v' : Scene) (r : Reshard) : Prop
  | kept {old : Reshard} (stored : v.stored = some old) (uid : r.uid = old.uid) (status : r.status = old.status)
      (deleting : old.deleting = true → r.deleting = true)
  | moved {p : Pass} {h : Copy Reshard} {status : ReshardStatus} (running : v.pass = some p) (free : p.stuck = false)
      (held : p.held = some h) (stored : v.stored = some h.obj) (move : Move p h.obj status)
      (new : r = { h.obj with status }) (database : v'.database = v.database)
  | born {uid : String} {spec : ReshardSpec} (new : r = { name := n, uid, spec })
      (unjournalled : ∀ id lsn, (id, lsn) ∈ v'.database.journals → id.uid ≠ uid) (unclaimed : ¬ v'.claimed)
      (unowned : ∀ f, v'.database.fence = some f → f.owner ≠ uid)

theorem Scene.Step.stored (step : Scene.Step n s v v') (stored : v'.stored = some r) : Scene.Stored n v v' r := by
  cases step with
  | own running deed =>
    cases deed with
    | moved _ free held before _ move | movedUnknown free held before _ move =>
      cases stored
      exact .moved running free held before move rfl rfl
    | pinned _ _ _ before | pinnedUnknown _ _ before =>
      cases stored
      exact .kept before rfl rfl id
    | unpinned => cases stored
    | _ => exact .kept stored rfl rfl id
  | born _ _ unclaimed _ unowned unjournalled =>
    cases stored
    exact .born rfl unjournalled unclaimed unowned
  | retagged before retagged =>
    cases retagged with
    | gone => cases stored
    | kept _ _ stays =>
      cases stored
      exact .kept before rfl rfl stays
  | _ => exact .kept stored rfl rfl id

/-- Where a barrier comes from. -/
inductive Scene.Journal (s : String) (v v' : Scene) (id : JournalId) (lsn : Nat) : Prop
  | old (member : (id, lsn) ∈ v.database.journals)
  | own {p : Pass} {h : Copy Reshard} (running : v.pass = some p) (free : p.stuck = false) (held : p.held = some h)
      (fenced : p.fenced = true) (freezing : Freezing h.obj s) (emitted : id = ⟨h.obj.uid, h.obj.status.cutoverAttempt⟩)
      (position : lsn = v.database.wal + 1) (fence : v'.database.fence = v.database.fence)
  | foreign (other : ∀ r, v'.stored = some r → r.uid ≠ id.uid)

theorem Scene.Step.journal (step : Scene.Step n s v v')
    (member : (id, lsn) ∈ v'.database.journals) : Scene.Journal s v v' id lsn := by
  cases step with
  | own running deed =>
    cases deed with
    | emitted free held fenced _ freezing =>
      rcases List.mem_cons.mp member with new | old
      · cases new
        exact .own running free held fenced freezing rfl rfl rfl
      · exact .old old
    | _ => exact .old member
  | journalledBy other =>
    rcases List.mem_cons.mp member with new | old
    · cases new
      exact .foreign other
    · exact .old old
  | _ => exact .old member

/-! ## One step -/

theorem Database.raise_since {db : Database} {owner : String} (stands : db.fence = some f) :
    (db.raise owner).fence = some ⟨f.since, owner⟩ := by
  simp [Database.raise, stands]

theorem Database.raise_behind {db : Database} {owner : String}
    (behind : ∀ g, db.fence = some g → g.since ≤ db.wal) (stands : (db.raise owner).fence = some f) :
    f.since ≤ (db.raise owner).wal := by
  cases before : db.fence with
  | none =>
    simp only [Database.raise, before] at stands
    cases stands
    exact le_refl _
  | some g =>
    rw [Database.raise_since before] at stands
    cases stands
    exact behind g before

namespace Fencing

section

variable (fencing : Fencing v) (step : Scene.Step n s v v')
include fencing step

theorem behind_step (stands : v'.database.fence = some f) : f.since ≤ v'.database.wal := by
  cases step with
  | own _ deed =>
    cases deed with
    | fenced => exact Database.raise_behind (fun _ => fencing.behind) stands
    | lifted => cases stands
    | emitted => exact le_trans (fencing.behind stands) (Nat.le_succ _)
    | _ => exact fencing.behind stands
  | fencedBy => exact Database.raise_behind (fun _ => fencing.behind) stands
  | liftedBy => cases stands
  | journalledBy | walExtended => exact le_trans (fencing.behind stands) (Nat.le_succ _)
  | _ => exact fencing.behind stands

theorem recorded_step (stored : v'.stored = some r) (frozen : r.status.cutoverFrozenLSN ≠ 0) :
    (⟨r.uid, r.status.cutoverAttempt⟩, r.status.cutoverFrozenLSN) ∈ v'.database.journals := by
  refine step.journals ?_
  rcases step.stored stored with ⟨before, uid, status, -⟩ | ⟨running, free, held, before, move, rfl, -⟩ | ⟨rfl, -⟩
  · rw [status] at frozen
    rw [uid, status]
    exact fencing.recorded before frozen
  · obtain ⟨attempt, same | emitted⟩ := move.freezes frozen
    · simp only [attempt, same] at frozen ⊢
      exact fencing.recorded before frozen
    · obtain ⟨h', held', member⟩ := fencing.barrier running free emitted frozen
      cases held.symm.trans held'
      simpa only [attempt] using member
  · exact absurd rfl frozen

theorem attempts_step (sound : Sound n v) (stored : v'.stored = some r)
    (member : (id, lsn) ∈ v'.database.journals) (own : id.uid = r.uid) :
    id.attempt < r.status.cutoverAttempt ∨ id.attempt = r.status.cutoverAttempt ∧ r.status.phase.barred = true := by
  rcases step.stored stored with ⟨before, uid, status, -⟩ | ⟨_, _, _, before, move, rfl, database⟩ |
    ⟨rfl, unjournalled⟩
  · rw [status]
    rcases step.journal member with old | ⟨running, free, held, _, freezing, rfl, -, -⟩ | other
    · exact fencing.attempts before old (own.trans uid)
    · obtain ⟨-, -, same, -⟩ := sound.same running free held before
      rw [same]
      exact .inr ⟨rfl, by simp [freezing.phase, ReshardPhase.barred]⟩
    · exact absurd own.symm (other r stored)
  · rw [database] at member
    rcases fencing.attempts before member own with earlier | ⟨same, barred⟩
    · rcases move.attempt with next | ⟨kept, -⟩
      · exact .inl (by simp only [next]; omega)
      · exact .inl (by simp only [kept]; omega)
    · rcases move.attempt with next | ⟨kept, stays⟩
      · exact .inl (by simp only [next]; omega)
      · exact .inr ⟨same.trans kept.symm, stays barred⟩
  · exact absurd own (unjournalled id lsn member)

theorem barrier_step (running' : v'.pass = some q) (free : q.stuck = false)
    (emitted : q.barrier = some lsn) (position : lsn ≠ 0) :
    ∃ h, q.held = some h ∧ (⟨h.obj.uid, h.obj.status.cutoverAttempt⟩, lsn) ∈ v'.database.journals := by
  have lasts : ∀ {p}, v.pass = some p → p.stuck = false → p.barrier = some lsn →
      ∃ h, p.held = some h ∧ (⟨h.obj.uid, h.obj.status.cutoverAttempt⟩, lsn) ∈ v'.database.journals := by
    intro p running free emitted
    obtain ⟨h, held, member⟩ := fencing.barrier running free emitted position
    exact ⟨h, held, step.journals member⟩
  cases step with
  | own running deed =>
    cases deed with
    | learned learns =>
      cases running'
      cases learns with
      | readSelf unheld =>
        obtain ⟨h, held, -⟩ := lasts running free emitted
        cases unheld.symm.trans held
      | gaveUp => cases free
      | tried _ _ refused => rcases refused with rfl | rfl <;> exact (lasts running free emitted :)
      | replayed held recorded =>
        cases emitted
        exact ⟨_, held, recorded position⟩
      | _ => exact (lasts running free emitted :)
    | moved =>
      cases running'
      cases emitted
    | movedUnknown =>
      cases running'
      cases free
    | pinned _ _ held =>
      cases running'
      obtain ⟨h, held', member⟩ := lasts running free emitted
      cases held.symm.trans held'
      exact ⟨_, rfl, member⟩
    | unpinned _ _ _ _ stuck still =>
      cases running'
      have before : _ = false := Bool.eq_false_iff.mpr fun before => absurd (still before) (Bool.eq_false_iff.mp free)
      exact (lasts running before emitted :)
    | pinnedUnknown => exact lasts running' free emitted
    | edited _ _ _ _ known =>
      cases running'
      rcases known with ⟨_, rfl⟩ | rfl <;> exact (lasts running free emitted :)
    | fenced _ _ _ _ known =>
      cases running'
      rcases known with rfl | ⟨_, rfl⟩ <;> exact (lasts running free emitted :)
    | lifted =>
      cases running'
      exact (lasts running free emitted :)
    | emitted _ held _ _ _ known =>
      cases running'
      rcases known with rfl | ⟨_, rfl⟩
      · cases emitted
        exact ⟨_, held, List.mem_cons_self⟩
      · exact (lasts running free emitted :)
  | began =>
    cases running'
    cases emitted
  | ended => cases running'
  | _ => exact lasts running' free emitted

end

end Fencing

theorem Scene.Step.fence (step : Scene.Step n s v v') (stands : v.database.fence = some f) :
    (∃ g, v'.database.fence = some g ∧ g.since = f.since) ∨
      (∃ p h, v.pass = some p ∧ p.stuck = false ∧ p.held = some h ∧ h.obj.status.switchCommitted = false ∧
        ¬ v'.Intact) ∨
      ∃ x, v.source = some x ∧ x.claim ≠ n ∧ x.claim ≠ "" := by
  cases step with
  | own running deed =>
    cases deed with
    | fenced => exact .inl ⟨_, Database.raise_since stands, rfl⟩
    | lifted free held _ _ uncommitted =>
      refine .inr (.inl ⟨_, _, running, free, held, uncommitted, fun intact => ?_⟩)
      exact absurd (intact _ rfl).1 (by simp)
    | _ => exact .inl ⟨f, stands, rfl⟩
  | fencedBy => exact .inl ⟨_, Database.raise_since stands, rfl⟩
  | liftedBy source other taken => exact .inr (.inr ⟨_, source, other, taken⟩)
  | _ => exact .inl ⟨f, stands, rfl⟩

theorem Holding.source_own (holding : Holding n v) (rooted : Rooted n s v) {x : Shard} (stored : v.stored = some r)
    (standing : Standing r) (intact : v.Intact) (source : v.source = some x) : x.claim = n := by
  obtain ⟨y, found, own⟩ := holding.owns rooted stored standing.phase standing.uncommitted standing.alive
    fun p running => (intact p running).2
  cases source.symm.trans found
  exact own

theorem Scene.Step.intact_running (step : Scene.Step n s v v') (running' : v'.pass = some q) (intact : v'.Intact) :
    v.Intact := by
  cases step with
  | own running deed => exact deed.intact running intact
  | began idle => exact fun p running => absurd (idle.symm.trans running).symm (Option.some_ne_none _)
  | ended => cases running'
  | _ => exact intact

theorem Scene.Step.intact (step : Scene.Step n s v v') (drop : DropSettled v v') (lift : LiftSettled v v')
    (stored : v.stored = some r) (standing : Standing r)
    (inTime : ∀ d, r.status.cutoverGateDeadline = some d → v'.InTime d) (intact : v'.Intact) : v.Intact := by
  cases step with
  | own running deed => exact deed.intact running intact
  | began idle => exact fun p running => absurd (idle.symm.trans running).symm (Option.some_ne_none _)
  | ended =>
    intro p running
    constructor
    · refine Bool.eq_false_iff.mpr fun unfenced => ?_
      rcases lift p r running rfl unfenced stored with deleting | left | ⟨d, deadline, late⟩
      · exact absurd deleting (by simp [standing.alive])
      · exact left standing.phase
      · rcases inTime d deadline with early | ⟨q, t, ended, -⟩
        · exact absurd late (not_lt.mpr early)
        · cases ended
    · refine Bool.eq_false_iff.mpr fun dropped => ?_
      rcases drop p r running rfl dropped stored with deleting | failed
      · exact absurd deleting (by simp [standing.alive])
      · exact absurd (standing.phase.symm.trans failed) (by decide)
  | _ => exact intact

namespace Fencing

theorem fence_kept (step : Scene.Step n s v v') (holding : Holding n v) (rooted : Rooted n s v)
    (stored : v.stored = some r) (standing : Standing r) (before : v.Intact) (after : v'.Intact)
    (stands : v.database.fence = some f) : ∃ g, v'.database.fence = some g ∧ g.since = f.since := by
  rcases step.fence stands with kept | ⟨_, _, _, _, _, _, given⟩ | ⟨x, source, other, -⟩
  · exact kept
  · exact absurd after given
  · exact absurd (holding.source_own rooted stored standing before source) other

theorem pass_fenced (step : Scene.Step n s v v') (running' : v'.pass = some q) (free : q.stuck = false)
    (fenced : q.fenced = true) (stored : v'.stored = some r) (standing : Standing r) :
    (∃ p old, v.pass = some p ∧ p.stuck = false ∧ p.fenced = true ∧ v.stored = some old ∧ Standing old) ∨
      ∃ f, v'.database.fence = some f := by
  cases step with
  | own running deed =>
    cases deed with
    | learned learns =>
      cases running'
      cases learns with
      | gaveUp => cases free
      | tried _ _ refused => rcases refused with rfl | rfl <;> exact .inl ⟨_, r, running, free, fenced, stored, standing⟩
      | _ => exact .inl ⟨_, r, running, free, fenced, stored, standing⟩
    | moved =>
      cases running'
      cases fenced
    | movedUnknown =>
      cases running'
      cases free
    | pinned _ _ _ before =>
      cases running'
      cases stored
      exact .inl ⟨_, _, running, free, fenced, before, standing.phase, standing.uncommitted, standing.alive⟩
    | unpinned => cases stored
    | pinnedUnknown _ _ before =>
      cases stored
      exact .inl ⟨q, _, running', free, fenced, before, standing.phase, standing.uncommitted, standing.alive⟩
    | edited _ _ _ _ known =>
      cases running'
      rcases known with ⟨_, rfl⟩ | rfl <;> exact .inl ⟨_, r, running, free, fenced, stored, standing⟩
    | fenced => exact .inr ⟨_, rfl⟩
    | lifted =>
      cases running'
      exact .inl ⟨_, r, running, free, fenced, stored, standing⟩
    | emitted _ _ _ _ _ known =>
      cases running'
      rcases known with rfl | ⟨_, rfl⟩ <;> exact .inl ⟨_, r, running, free, fenced, stored, standing⟩
  | began =>
    cases running'
    cases fenced
  | ended => cases running'
  | born =>
    cases stored
    cases standing.phase
  | retagged before retagged =>
    cases retagged with
    | gone => cases stored
    | kept _ _ stays =>
      cases stored
      refine .inl ⟨q, _, running', free, fenced, before, standing.phase, standing.uncommitted, ?_⟩
      exact Bool.eq_false_iff.mpr fun gone => absurd (stays gone) (Bool.eq_false_iff.mp standing.alive)
  | _ => exact .inl ⟨q, r, running', free, fenced, stored, standing⟩

section

variable (fencing : Fencing v) (rooted : Rooted n s v) (holding : Holding n v) (step : Scene.Step n s v v')
include fencing step

theorem standing_step (stored : v'.stored = some r) (standing : Standing r) :
    (∃ old, v.stored = some old ∧ Standing old ∧ r.uid = old.uid ∧
      r.status.cutoverAttempt = old.status.cutoverAttempt ∧
      r.status.cutoverGateDeadline = old.status.cutoverGateDeadline) ∨
    ∀ lsn, (⟨r.uid, r.status.cutoverAttempt⟩, lsn) ∉ v'.database.journals := by
  rcases step.stored stored with ⟨before, uid, status, stays⟩ | ⟨_, _, _, before, move, rfl, database⟩ | ⟨rfl, -⟩
  · refine .inl ⟨_, before, ⟨?_, ?_, ?_⟩, uid, by rw [status], by rw [status]⟩
    · exact status ▸ standing.phase
    · exact status ▸ standing.uncommitted
    · exact Bool.eq_false_iff.mpr fun gone => absurd (stays gone) (by simp [standing.alive])
  · obtain ⟨attempt, ready | ⟨stood, deadline⟩⟩ := move.stands standing
    · refine .inr fun lsn member => ?_
      rw [database] at member
      rcases fencing.attempts before member rfl with earlier | ⟨-, barred⟩
      · simp only [attempt] at earlier
        omega
      · simp [ready, ReshardPhase.barred] at barred
    · exact .inl ⟨_, before, stood, rfl, attempt, deadline⟩
  · cases standing.phase

theorem frozen_step (sound : Sound n v) (exclusive : Exclusive n v) (stored : v'.stored = some r)
    (committed : r.status.switchCommitted = true) :
    ∃ f, v'.database.fence = some f ∧ f.since < r.status.cutoverFrozenLSN := by
  cases step.stored stored with
  | kept before uid status _ =>
    rw [status] at committed ⊢
    obtain ⟨f, stands, earlier⟩ := fencing.frozen before committed
    rcases step.fence stands with ⟨g, stands', since⟩ | ⟨p, h, running, free, held, open_, -⟩ | ⟨x, source, other, taken⟩
    · exact ⟨g, stands', since ▸ earlier⟩
    · obtain ⟨-, -, same, -⟩ := sound.same running free held before
      exact absurd committed (by simp [same, open_])
    · obtain ⟨y, found, state⟩ := exclusive ((sound.committed (.inl before)).mpr committed)
      cases source.symm.trans found
      exact absurd (state.resolve_left other).1 taken
  | @moved p h status running free held before move new database =>
    subst new
    rw [database]
    cases done : h.obj.status.switchCommitted with
    | true =>
      obtain ⟨f, stands, earlier⟩ := fencing.frozen before done
      exact ⟨f, stands, (move.keeps_frozen done).symm ▸ earlier⟩
    | false =>
      rcases move.commits committed with already | ⟨phase, alive, frozen, same, inTime, unfenced, undropped⟩
      · exact absurd already (by simp [done])
      · -- the commit: the barrier is recorded, and the fence has stood since before it
        refine fencing.guarded before ⟨phase, done, alive⟩ ?_ ?_ ?_
        · intro q running'
          cases running.symm.trans running'
          exact ⟨unfenced, undropped⟩
        · intro d deadline
          obtain ⟨t, read, bound⟩ := inTime d deadline
          exact .inr ⟨p, t, running, read, bound⟩
        · simpa only [same] using fencing.recorded before frozen
  | born new =>
    subst new
    cases committed

include rooted holding

theorem raised_step (running' : v'.pass = some q) (free : q.stuck = false) (fenced : q.fenced = true) (intact : v'.Intact)
    (stored : v'.stored = some r) (standing : Standing r) : ∃ f, v'.database.fence = some f := by
  rcases pass_fenced step running' free fenced stored standing with
    ⟨p, old, running, free', fenced', before, stood⟩ | stands
  · have intact' := step.intact_running running' intact
    obtain ⟨f, stands⟩ := fencing.raised running free' fenced' intact' before stood
    obtain ⟨g, stands', -⟩ := fence_kept step holding rooted before stood intact' intact stands
    exact ⟨g, stands'⟩
  · exact stands

theorem guarded_step (drop : DropSettled v v') (lift : LiftSettled v v') (stored : v'.stored = some r)
    (standing : Standing r) (intact : v'.Intact)
    (inTime : ∀ d, r.status.cutoverGateDeadline = some d → v'.InTime d)
    (member : (⟨r.uid, r.status.cutoverAttempt⟩, lsn) ∈ v'.database.journals) :
    ∃ f, v'.database.fence = some f ∧ f.since < lsn := by
  obtain ⟨old, before, stood, uid, attempt, deadline⟩ :=
    (fencing.standing_step step stored standing).resolve_right fun none => none lsn member
  have inTime' : ∀ d, old.status.cutoverGateDeadline = some d → v'.InTime d := fun d found => inTime d (deadline.trans found)
  have intact' := step.intact drop lift before stood inTime' intact
  have lasts : (∃ f, v.database.fence = some f ∧ f.since < lsn) → ∃ f, v'.database.fence = some f ∧ f.since < lsn := by
    rintro ⟨f, stands, earlier⟩
    obtain ⟨g, stands', since⟩ := fence_kept step holding rooted before stood intact' intact stands
    exact ⟨g, stands', since ▸ earlier⟩
  rcases step.journal member with member' | ⟨running, free, held, fenced, -, -, position, fence⟩ | other
  · refine lasts (fencing.guarded before stood intact' (fun d found => step.inTime (inTime' d found)) ?_)
    rwa [← uid, ← attempt]
  · obtain ⟨f, stands⟩ := fencing.raised running free fenced intact' before stood
    refine ⟨f, fence.trans stands, ?_⟩
    have := fencing.behind stands
    omega
  · exact absurd rfl (other r stored)

end

/-- The fencing of a cutover is kept by every step in which no pass ends with the
cutover half given up. -/
theorem step (fencing : Fencing v) (sound : Sound n v) (rooted : Rooted n s v) (holding : Holding n v)
    (exclusive : Exclusive n v) (drop : DropSettled v v') (lift : LiftSettled v v') (step : Scene.Step n s v v') :
    Fencing v' where
  behind := fencing.behind_step step
  recorded := fencing.recorded_step step
  attempts := fencing.attempts_step step sound
  barrier := fencing.barrier_step step
  raised := fencing.raised_step rooted holding step
  guarded := fencing.guarded_step rooted holding step drop lift
  frozen := fencing.frozen_step step sound exclusive

end Fencing

end PgShard.Operator
