import PgShard.Operator.Scene

/-! What every scene has. -/

namespace PgShard.Operator

open Versioned

variable {status : ReshardStatus} {h : Copy Reshard}

variable {n s : String} {v v' : Scene} {p q : Pass} {r : Reshard}

/-! ## What a move cannot do -/

section

variable (move : Move p r status)
include move

theorem Move.keeps_commit
    (committed : r.status.switchCommitted = true) : status.switchCommitted = true := by
  cases move <;> first | exact committed | rfl

theorem Move.keeps_failure (failed : r.status.phase = .failed) :
    status.phase = .failed := by
  cases move <;> simp_all [ReshardPhase.early]

theorem Move.enters_cutover (phase : status.phase = .cuttingOver) :
    r.status.phase = .cuttingOver ∨ ∃ source ∈ p.shards, r.status.phase = .readyToCutover ∧
      source.obj.name = r.spec.sourceShard ∧ source.obj.claim = p.name := by
  cases move with
  | gate _ ready _ _ held named claimed => exact .inr ⟨_, held, ready, named, claimed⟩
  | _ => simp_all

theorem Move.pins_source :
    status.sourceShardUID = r.status.sourceShardUID ∨ ∃ source ∈ p.shards,
      source.obj.name = r.spec.sourceShard ∧ status.sourceShardUID = source.obj.uid := by
  cases move with
  | validated _ _ _ held named => exact .inr ⟨_, held, named, rfl⟩
  | _ => exact .inl rfl

theorem Move.leaves_early (late : status.phase.early = false)
    (unfailed : status.phase ≠ .failed) : (r.status.phase.early = false ∧ r.status.phase ≠ .failed) ∨
      ∃ source ∈ p.shards, source.obj.name = r.spec.sourceShard ∧ status.sourceShardUID = source.obj.uid := by
  cases move with
  | validated _ _ _ held named => exact .inr ⟨_, held, named, rfl⟩
  | await => cases late
  | failed => exact absurd rfl unfailed
  | _ => left; simp_all [ReshardPhase.early]

/-- The switch commits in a live cutover that is frozen, in time and has given up
neither fence nor claim. -/
theorem Move.commits (committed : status.switchCommitted = true) :
    r.status.switchCommitted = true ∨ (r.status.phase = .cuttingOver ∧ r.deleting = false ∧
      r.status.cutoverFrozenLSN ≠ 0 ∧ status.cutoverFrozenLSN = r.status.cutoverFrozenLSN ∧ p.inTime r ∧
      p.unfenced = false ∧ p.dropped = false) := by
  cases move with
  | commit _ phase alive _ frozen inTime kept => exact .inr ⟨phase, alive, frozen, rfl, inTime, kept⟩
  | _ => exact .inl committed

end

/-! ## Where a known reshard comes from -/

/-- The reshard is the stored one, or the one that a pass still fit to write holds. -/
def Scene.Knows (v : Scene) (r : Reshard) : Prop :=
  v.stored = some r ∨ ∃ p h, v.pass = some p ∧ p.stuck = false ∧ p.held = some h ∧ h.obj = r

/-- How a scene comes to know a reshard. -/
inductive Scene.Origin (n s : String) (v v' : Scene) (r : Reshard) : Prop
  | kept {old : Reshard} (known : v.Knows old) (uid : r.uid = old.uid) (spec : r.spec = old.spec)
      (status : r.status = old.status) (commits : v'.committed = v.committed)
  | moved {p : Pass} {h : Copy Reshard} (running : v.pass = some p) (free : p.stuck = false) (held : p.held = some h)
      (stored : v.stored = some h.obj) (here : h.obj.spec.sourceShard = s) (move : Move p h.obj r.status)
      (uid : r.uid = h.obj.uid) (spec : r.spec = h.obj.spec)
      (commits : v'.committed = (v.committed ∨ r.status.switchCommitted = true))
  | born {uid : String} {spec : ReshardSpec} (fresh : r = { name := n, uid, spec }) (unclaimed : ¬ v'.claimed)
      (open_ : ¬ v'.committed)

@[simp] theorem Pass.wroteShard_stuck (p : Pass) (c : Copy Shard) (answer : Wrote) :
    (p.wroteShard c answer).stuck = p.stuck := by
  cases answer <;> rfl

theorem Learns.held {q : Pass} (learns : Learns n s v p q) (held : q.held = some h) :
    p.held = some h ∨ v.stored = some h.obj := by
  cases learns with
  | readSelf _ stored =>
    cases held
    exact .inr stored
  | tried => exact .inl (by simpa using held)
  | _ => exact .inl held

theorem Learns.stuck {q : Pass} (learns : Learns n s v p q) (free : q.stuck = false) : p.stuck = false := by
  cases learns with
  | gaveUp => cases free
  | tried => simpa using free
  | _ => exact free

theorem Scene.knows_of_stored (stored : v.stored = some r) : v.Knows r := .inl stored

theorem Scene.knows_of_held (running : v.pass = some p) (free : p.stuck = false)
    (held : p.held = some h) : v.Knows h.obj := .inr ⟨p, h, running, free, held, rfl⟩

theorem Deed.origin (deed : Deed n s v p v') (running : v.pass = some p) (known : v'.Knows r) : v.Origin n s v' r := by
  have keeps : ∀ {r}, v'.committed = v.committed → v.Knows r → v.Origin n s v' r :=
    fun commits known => .kept known rfl rfl rfl commits
  cases deed with
  | @learned q learns =>
    rcases known with stored | ⟨_, h, ⟨⟩, free, held, rfl⟩
    · exact keeps rfl (.inl stored)
    · rcases learns.held held with before | stored
      · exact keeps rfl (v.knows_of_held running (learns.stuck free) before)
      · exact keeps rfl (.inl stored)
  | moved version free held stored here move =>
    rcases known with new | ⟨_, h', ⟨⟩, _, ⟨⟩, rfl⟩
    · cases new
      exact .moved running free held stored here move rfl rfl rfl
    · exact .moved running free held stored here move rfl rfl rfl
  | movedUnknown free held stored here move =>
    rcases known with new | ⟨_, _, ⟨⟩, stuck, _⟩
    · cases new
      exact .moved running free held stored here move rfl rfl rfl
    · cases stuck
  | pinned version finalizers held stored =>
    rcases known with new | ⟨_, h', ⟨⟩, _, ⟨⟩, rfl⟩
    · cases new
      exact .kept (.inl stored) rfl rfl rfl rfl
    · exact .kept (.inl stored) rfl rfl rfl rfl
  | unpinned held stored here cleaned stuck still =>
    rcases known with new | ⟨_, h', ⟨⟩, free, held', rfl⟩
    · cases new
    · refine keeps rfl (v.knows_of_held running ?_ held')
      cases before : p.stuck
      · rfl
      · exact absurd (still before) (by simp_all)
  | pinnedUnknown finalizers held stored =>
    rcases known with new | held'
    · cases new
      exact .kept (.inl stored) rfl rfl rfl rfl
    · exact keeps rfl (.inr held')
  | edited =>
    rcases known with stored | ⟨_, h, ⟨⟩, free, held, rfl⟩
    · exact keeps rfl (.inl stored)
    · exact keeps rfl (v.knows_of_held running (by simpa using free) (by simpa using held))
  | fenced _ _ _ _ known' | emitted _ _ _ _ _ known' =>
    rcases known with stored | ⟨_, h, ⟨⟩, free, held, rfl⟩
    · exact keeps rfl (.inl stored)
    · rcases known' with rfl | ⟨_, rfl⟩ <;> exact keeps rfl (v.knows_of_held running free held)
  | lifted =>
    rcases known with stored | ⟨_, h, ⟨⟩, free, held, rfl⟩
    · exact keeps rfl (.inl stored)
    · exact keeps rfl (v.knows_of_held running free held)

theorem Scene.Step.origin (step : Scene.Step n s v v') (known : v'.Knows r) : v.Origin n s v' r := by
  cases step with
  | own running deed => exact deed.origin running known
  | began =>
    rcases known with stored | ⟨_, h, ⟨⟩, _, held, rfl⟩
    · exact .kept (.inl stored) rfl rfl rfl rfl
    · cases held
  | ended =>
    rcases known with stored | ⟨_, _, ended, _⟩
    · exact .kept (.inl stored) rfl rfl rfl rfl
    · cases ended
  | born absent unheld unclaimed open_ =>
    rcases known with new | ⟨p, h, running, _, held, _⟩
    · cases new
      exact .born rfl unclaimed open_
    · cases (unheld p running).symm.trans held
  | retagged stored retagged =>
    rcases known with new | held
    · cases retagged with
      | gone => cases new
      | kept =>
        cases new
        exact .kept (.inl stored) rfl rfl rfl rfl
    · exact .kept (.inr held) rfl rfl rfl rfl
  | _ => exact .kept known rfl rfl rfl rfl

/-! ## The pass and what it knows -/

/-- A pass that may still write knows the reshard as it is stored, and whether its
switch has committed. -/
structure Sound (n : String) (v : Scene) : Prop where
  named : ∀ {p}, v.pass = some p → p.name = n
  same : ∀ {p h r}, v.pass = some p → p.stuck = false → p.held = some h → v.stored = some r →
    r.uid = h.obj.uid ∧ r.spec = h.obj.spec ∧ r.status = h.obj.status ∧ (h.obj.deleting = true → r.deleting = true)
  committed : ∀ {r}, v.Knows r → (v.committed ↔ r.status.switchCommitted = true)

theorem Learns.name {q : Pass} (learns : Learns n s v p q) : q.name = p.name := by
  cases learns with
  | @tried _ _ _ _ answer => cases answer <;> rfl
  | _ => rfl

theorem Deed.pass (deed : Deed n s v p v') (running : v.pass = some p) : ∃ q, v'.pass = some q ∧ q.name = p.name := by
  cases deed with
  | learned learns => exact ⟨_, rfl, learns.name⟩
  | pinnedUnknown => exact ⟨p, running, rfl⟩
  | @edited _ _ _ _ answer => exact ⟨_, rfl, by cases answer <;> rfl⟩
  | fenced _ _ _ _ known | emitted _ _ _ _ _ known => exact ⟨_, rfl, by rcases known with rfl | ⟨_, rfl⟩ <;> rfl⟩
  | _ => exact ⟨_, rfl, rfl⟩

theorem Sound.learned (sound : Sound n v) (running : v.pass = some p) (learns : Learns n s v p q)
    (free : q.stuck = false) (held : q.held = some h) (stored : v.stored = some r) :
    r.uid = h.obj.uid ∧ r.spec = h.obj.spec ∧ r.status = h.obj.status ∧
      (h.obj.deleting = true → r.deleting = true) := by
  rcases learns.held held with before | current
  · exact sound.same running (learns.stuck free) before stored
  · cases current.symm.trans stored
    exact ⟨rfl, rfl, rfl, id⟩

theorem Sound.same_deed (sound : Sound n v) (running : v.pass = some p) (deed : Deed n s v p v')
    (running' : v'.pass = some q) (free : q.stuck = false) (held : q.held = some h) (stored : v'.stored = some r) :
    r.uid = h.obj.uid ∧ r.spec = h.obj.spec ∧ r.status = h.obj.status ∧
      (h.obj.deleting = true → r.deleting = true) := by
  cases deed with
  | learned learns =>
    cases running'
    exact sound.learned running learns free held stored
  | moved | pinned =>
    cases running'
    cases held
    cases stored
    exact ⟨rfl, rfl, rfl, id⟩
  | movedUnknown =>
    cases running'
    cases free
  | unpinned => cases stored
  | pinnedUnknown finalizers held' stored' =>
    cases running.symm.trans running'
    cases held'.symm.trans held
    cases stored
    exact ⟨rfl, rfl, rfl, id⟩
  | edited =>
    cases running'
    exact sound.same running (by simpa using free) (by simpa using held) stored
  | fenced _ _ _ _ known | emitted _ _ _ _ _ known =>
    cases running'
    rcases known with rfl | ⟨_, rfl⟩ <;> exact sound.same running free held stored
  | lifted =>
    cases running'
    exact sound.same running free held stored

theorem Sound.step (sound : Sound n v) (step : Scene.Step n s v v') : Sound n v' where
  named := by
    intro q running'
    cases step with
    | own running deed =>
      obtain ⟨q', pass, name⟩ := deed.pass running
      cases pass.symm.trans running'
      exact name.trans (sound.named running)
    | began =>
      cases running'
      rfl
    | ended => cases running'
    | _ => exact sound.named running'
  same := by
    intro q h r running' free held stored
    cases step with
    | own running deed => exact sound.same_deed running deed running' free held stored
    | began =>
      cases running'
      cases held
    | ended => cases running'
    | born absent unheld => cases (unheld q running').symm.trans held
    | retagged before retagged =>
      cases retagged with
      | gone => cases stored
      | kept finalizers deleting stays =>
        cases stored
        obtain ⟨uid, spec, status, deleted⟩ := sound.same running' free held before
        exact ⟨uid, spec, status, fun gone => stays (deleted gone)⟩
    | _ => exact sound.same running' free held stored
  committed := by
    intro r known
    rcases step.origin known with ⟨before, -, -, status, commits⟩ | ⟨_, _, _, stored, _, move, _, _, commits⟩ |
      ⟨rfl, -, open_⟩
    · rw [commits, status]
      exact sound.committed before
    · rw [commits, sound.committed (.inl stored)]
      exact or_iff_right_of_imp move.keeps_commit
    · exact ⟨fun committed => absurd committed open_, fun committed => by cases committed⟩

theorem Scene.Step.commits (step : Scene.Step n s v v') (committed : v'.committed) :
    v.committed ∨ ∃ p h status, v.pass = some p ∧ p.stuck = false ∧ p.held = some h ∧ v.stored = some h.obj ∧
      Move p h.obj status ∧ status.switchCommitted = true := by
  cases step with
  | own running deed =>
    cases deed with
    | moved _ free held stored _ move | movedUnknown free held stored _ move =>
      exact committed.imp_right fun switched => ⟨_, _, _, running, free, held, stored, move, switched⟩
    | _ => exact .inl committed
  | _ => exact .inl committed

theorem Sound.agree (sound : Sound n v) (running : v.pass = some p) (free : p.stuck = false)
    (held : p.held = some h) (known : v.Knows r) : r.uid = h.obj.uid ∧ r.spec = h.obj.spec ∧ r.status = h.obj.status := by
  rcases known with stored | ⟨q, h', running', _, held', rfl⟩
  · obtain ⟨uid, spec, status, -⟩ := sound.same running free held stored
    exact ⟨uid, spec, status⟩
  · cases running.symm.trans running'
    cases held.symm.trans held'
    exact ⟨rfl, rfl, rfl⟩

/-! ## The source -/

theorem Scene.Step.source_kept {x : Shard} (step : Scene.Step n s v v') (stored : v.source = some x) :
    ∃ y, v'.source = some y ∧ y.uid = x.uid := by
  cases step with
  | own _ deed =>
    cases deed with
    | edited _ _ stored' edit =>
      cases stored.symm.trans stored'
      exact ⟨_, rfl, edit.uid⟩
    | _ => exact ⟨x, stored, rfl⟩
  | appeared absent => cases absent.symm.trans stored
  | changed stored' uid =>
    cases stored.symm.trans stored'
    exact ⟨_, rfl, uid⟩
  | taken stored' | givenBack stored' | served stored' =>
    cases stored.symm.trans stored'
    exact ⟨_, rfl, rfl⟩
  | _ => exact ⟨x, stored, rfl⟩

theorem Scene.Step.source_appears {y : Shard} (step : Scene.Step n s v v') (absent : v.source = none)
    (stored : v'.source = some y) : y.uid ≠ "" ∧ y.claim = "" := by
  cases step with
  | own _ deed =>
    cases deed with
    | edited _ _ before => cases absent.symm.trans before
    | _ => cases absent.symm.trans stored
  | appeared _ free identified =>
    cases stored
    exact ⟨identified, free⟩
  | changed before | taken before | givenBack before | served before => cases absent.symm.trans before
  | _ => cases absent.symm.trans stored

theorem Scene.Step.claimed_kept (step : Scene.Step n s v v') (claimed : v.claimed) : v'.claimed := by
  cases step with
  | own _ deed =>
    cases deed with
    | edited => exact .inl claimed
    | _ => exact claimed
  | _ => exact claimed

/-- The source is the pinned one, and its claim is taken only by a validated
reshard and before the cutover. -/
structure Rooted (n s : String) (v : Scene) : Prop where
  identified : ∀ {x}, v.source = some x → x.uid ≠ ""
  carried : ∀ {x}, v.source = some x → x.claim = n → v.claimed
  copies : ∀ {p c}, v.pass = some p → c ∈ p.shards → c.obj.name = s →
    (∃ x, v.source = some x ∧ x.uid = c.obj.uid) ∧ (c.obj.claim = n → v.claimed)
  pinned : ∀ {r}, v.Knows r → r.status.sourceShardUID ≠ "" →
    ∃ x, v.source = some x ∧ x.uid = r.status.sourceShardUID
  validated : ∀ {r}, v.Knows r → r.status.phase.early = false → r.status.phase ≠ .failed →
    r.status.sourceShardUID ≠ ""
  claimant : ∀ {r}, v.Knows r → v.claimed → r.status.sourceShardUID ≠ ""
  cutting : ∀ {r}, v.Knows r → r.status.phase = .cuttingOver → v.claimed
  switched : v.committed → v.claimed

section

variable (rooted : Rooted n s v)
include rooted

theorem Rooted.copies_deed (running : v.pass = some p) (deed : Deed n s v p v') {c : Copy Shard}
    (running' : v'.pass = some q) (member : c ∈ q.shards) (here : c.obj.name = s) :
    (∃ x, v'.source = some x ∧ x.uid = c.obj.uid) ∧ (c.obj.claim = n → v'.claimed) := by
  have step : Scene.Step n s v v' := .own running deed
  have lasts : (∃ x, v.source = some x ∧ x.uid = c.obj.uid) ∧ (c.obj.claim = n → v.claimed) →
      (∃ x, v'.source = some x ∧ x.uid = c.obj.uid) ∧ (c.obj.claim = n → v'.claimed) := by
    rintro ⟨⟨x, stored, uid⟩, claimed⟩
    obtain ⟨y, stored', uid'⟩ := step.source_kept stored
    exact ⟨⟨y, stored', uid'.trans uid⟩, fun own => step.claimed_kept (claimed own)⟩
  have old : c ∈ p.shards → (∃ x, v'.source = some x ∧ x.uid = c.obj.uid) ∧ (c.obj.claim = n → v'.claimed) :=
    fun member => lasts (rooted.copies running member here)
  cases deed with
  | learned learns =>
    cases running'
    cases learns with
    | readShard source =>
      rcases List.mem_cons.mp member with rfl | before
      · exact source here
      · exact old before
    | served elsewhere =>
      rcases List.mem_cons.mp member with rfl | before
      · exact absurd here elsewhere
      · exact old before
    | tried _ _ refused => rcases refused with rfl | rfl <;> exact old member
    | _ => exact old member
  | edited _ _ stored edit known =>
    cases running'
    rcases known with ⟨_, rfl⟩ | rfl
    · rcases List.mem_cons.mp member with rfl | before
      · exact ⟨⟨_, rfl, rfl⟩, .inr⟩
      · exact old before
    · exact old member
  | pinnedUnknown =>
    cases running.symm.trans running'
    exact old member
  | fenced _ _ _ _ known | emitted _ _ _ _ _ known =>
    cases running'
    rcases known with rfl | ⟨_, rfl⟩ <;> exact old member
  | _ =>
    cases running'
    exact old member

theorem Rooted.claimed_cases (step : Scene.Step n s v v') (named : n ≠ "")
    (claimed : v'.claimed) : v.claimed ∨ ∃ p h y, v.pass = some p ∧ p.stuck = false ∧ p.held = some h ∧
      h.obj.status.phase = .readyToCutover ∧ v'.stored = v.stored ∧ v'.source = some y ∧ y.claim = p.name := by
  cases step with
  | own running deed =>
    cases deed with
    | edited free held stored edit =>
      rcases claimed with before | own
      · exact .inl before
      · cases edit with
        | claim _ phase => exact .inr ⟨_, _, _, running, free, held, phase, rfl, rfl, rfl⟩
        | release => exact absurd own.symm named
        | hide | serve => exact .inl (rooted.carried stored own)
    | _ => exact .inl claimed
  | _ => exact .inl claimed

theorem Rooted.pins (running : v.pass = some p)
    (here : h.obj.spec.sourceShard = s) (stored : v.stored = some h.obj) (move : Move p h.obj status)
    (pinned : status.sourceShardUID ≠ "") : ∃ x, v.source = some x ∧ x.uid = status.sourceShardUID := by
  rcases move.pins_source with same | ⟨source, member, named, uid⟩
  · rw [same] at pinned ⊢
    exact rooted.pinned (.inl stored) pinned
  · rw [uid]
    exact (rooted.copies running member (named.trans here)).1

theorem Rooted.copy_identified {c : Copy Shard} (running : v.pass = some p)
    (member : c ∈ p.shards) (here : c.obj.name = s) : c.obj.uid ≠ "" := by
  obtain ⟨⟨x, stored, uid⟩, -⟩ := rooted.copies running member here
  exact uid ▸ rooted.identified stored

theorem Rooted.step (sound : Sound n v) (named : n ≠ "") (step : Scene.Step n s v v') :
    Rooted n s v' where
  identified := by
    intro y stored
    cases before : v.source with
    | none => exact (step.source_appears before stored).1
    | some x =>
      obtain ⟨z, stored', uid⟩ := step.source_kept before
      cases stored.symm.trans stored'
      exact uid ▸ rooted.identified before
  carried := by
    intro y stored own
    cases step with
    | own running deed =>
      cases deed with
      | edited =>
        cases stored
        exact .inr own
      | _ => exact rooted.carried stored own
    | appeared _ free =>
      cases stored
      exact absurd (own.symm.trans free) named
    | changed before _ claim =>
      cases stored
      exact rooted.carried before (claim.symm.trans own)
    | taken _ _ _ other =>
      cases stored
      exact absurd own other
    | givenBack =>
      cases stored
      exact absurd own.symm named
    | served before =>
      cases stored
      exact rooted.carried before own
    | _ => exact rooted.carried stored own
  copies := by
    intro q c running' member here
    have lasts : ∀ {p}, v.pass = some p → c ∈ p.shards →
        (∃ x, v'.source = some x ∧ x.uid = c.obj.uid) ∧ (c.obj.claim = n → v'.claimed) := by
      intro p running before
      obtain ⟨⟨x, stored, uid⟩, claimed⟩ := rooted.copies running before here
      obtain ⟨y, stored', uid'⟩ := step.source_kept stored
      exact ⟨⟨y, stored', uid'.trans uid⟩, fun own => step.claimed_kept (claimed own)⟩
    cases step with
    | own running deed => exact rooted.copies_deed running deed running' member here
    | began =>
      cases running'
      exact absurd member List.not_mem_nil
    | ended => cases running'
    | _ => exact lasts running' member
  pinned := by
    intro r known pinned
    have lasts : (∃ x, v.source = some x ∧ x.uid = r.status.sourceShardUID) →
        ∃ x, v'.source = some x ∧ x.uid = r.status.sourceShardUID := by
      rintro ⟨x, stored, uid⟩
      obtain ⟨y, stored', uid'⟩ := step.source_kept stored
      exact ⟨y, stored', uid'.trans uid⟩
    rcases step.origin known with ⟨before, -, -, status, -⟩ | ⟨running, _, _, stored, here, move, _, _, _⟩ |
      ⟨rfl, -, -⟩
    · rw [status] at pinned lasts ⊢
      exact lasts (rooted.pinned before pinned)
    · exact lasts (rooted.pins running here stored move pinned)
    · exact absurd rfl pinned
  validated := by
    intro r known late unfailed
    rcases step.origin known with ⟨before, -, -, status, -⟩ | ⟨running, _, _, stored, here, move, _, _, _⟩ |
      ⟨rfl, -, -⟩
    · rw [status] at late unfailed ⊢
      exact rooted.validated before late unfailed
    · rcases move.leaves_early late unfailed with ⟨late', unfailed'⟩ | ⟨source, member, named', uid⟩
      · rcases move.pins_source with same | ⟨source, member, named', uid⟩
        · exact same ▸ rooted.validated (.inl stored) late' unfailed'
        · exact uid ▸ rooted.copy_identified running member (named'.trans here)
      · exact uid ▸ rooted.copy_identified running member (named'.trans here)
    · cases late
  claimant := by
    intro r known claimed
    -- the claim is an old one, or a validated reshard takes it now
    have pinned : ∀ {old}, v.Knows old → old.status.sourceShardUID ≠ "" := by
      intro old known
      rcases rooted.claimed_cases step named claimed with before | ⟨p, h, _, running, free, held, phase, -⟩
      · exact rooted.claimant known before
      · obtain ⟨-, -, status⟩ := sound.agree running free held known
        exact rooted.validated known (by rw [status, phase]; rfl) (by rw [status, phase]; decide)
    rcases step.origin known with ⟨before, -, -, status, -⟩ | ⟨running, _, _, stored, here, move, _, _, _⟩ |
      ⟨rfl, unclaimed, -⟩
    · exact status ▸ pinned before
    · rcases move.pins_source with same | ⟨source, member, named', uid⟩
      · exact same ▸ pinned (.inl stored)
      · exact uid ▸ rooted.copy_identified running member (named'.trans here)
    · exact absurd claimed unclaimed
  cutting := by
    intro r known phase
    refine step.claimed_kept ?_
    rcases step.origin known with ⟨before, -, -, status, -⟩ | ⟨running, _, _, stored, here, move, _, _, _⟩ |
      ⟨rfl, -, -⟩
    · exact rooted.cutting before (status ▸ phase)
    · rcases move.enters_cutover phase with before | ⟨source, member, _, named', claim⟩
      · exact rooted.cutting (.inl stored) before
      · exact (rooted.copies running member (named'.trans here)).2 (claim.trans (sound.named running))
    · cases phase
  switched := by
    intro committed
    refine step.claimed_kept ?_
    rcases step.commits committed with before | ⟨p, h, status, _, _, _, stored, move, switched⟩
    · exact rooted.switched before
    · rcases move.commits switched with before | ⟨phase, -⟩
      · exact rooted.switched ((sound.committed (.inl stored)).mpr before)
      · exact rooted.cutting (.inl stored) phase

end

end PgShard.Operator
