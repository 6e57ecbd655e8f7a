import PgShard.Operator.Sound

/-! The claim on the source, and who keeps it. -/

namespace PgShard.Operator

open Versioned

variable {n s : String} {v v' : Scene} {p q : Pass} {r : Reshard}

/-- A pass that has dropped the claim ends only once the reshard is being deleted
or has failed. -/
def DropSettled (v v' : Scene) : Prop :=
  ∀ p r, v.pass = some p → v'.pass = none → p.dropped = true → v.stored = some r →
    r.deleting = true ∨ r.status.phase = .failed

/-- The claim may be gone: the pass has dropped it, or the reshard is being deleted
and its pass knows that. -/
def Scene.Loose (v : Scene) (r : Reshard) : Prop :=
  (∃ p, v.pass = some p ∧ p.dropped = true) ∨
    r.deleting = true ∧ ∀ p h, v.pass = some p → p.held = some h → h.obj.deleting = true

/-- An open reshard that has had the claim has it still, or is loose. -/
def Holding (n : String) (v : Scene) : Prop :=
  ∀ r, v.stored = some r → v.claimed → r.status.switchCommitted = false → r.status.phase ≠ .failed →
    (∃ x, v.source = some x ∧ x.claim = n) ∨ v.Loose r

@[simp] theorem Pass.wroteShard_dropped (p : Pass) (c : Copy Shard) (answer : Wrote) (dropped : p.dropped = true) :
    (p.wroteShard c answer).dropped = true := by
  cases answer <;> simp [Pass.wroteShard, dropped]

theorem Learns.dropped {q : Pass} (learns : Learns n s v p q) (dropped : p.dropped = true) : q.dropped = true := by
  cases learns with
  | tried => simp [dropped]
  | _ => exact dropped

theorem Learns.loose (learns : Learns n s v p q) (running : v.pass = some p) (stored : v.stored = some r)
    (loose : v.Loose r) : Scene.Loose { v with pass := some q } r := by
  rcases loose with ⟨_, running', dropped⟩ | ⟨deleting, known⟩
  · cases running.symm.trans running'
    exact .inl ⟨q, rfl, learns.dropped dropped⟩
  · refine .inr ⟨deleting, ?_⟩
    rintro _ h ⟨⟩ held
    rcases learns.held held with before | current
    · exact known p h running before
    · cases current.symm.trans stored
      exact deleting

theorem Scene.Loose.pass {r' : Reshard} (loose : v.Loose r) (running : v.pass = some p) (running' : v'.pass = some q)
    (held : ∀ h, q.held = some h → ∃ g, p.held = some g ∧ h.obj.deleting = g.obj.deleting)
    (dropped : p.dropped = true → q.dropped = true) (deleted : r.deleting = true → r'.deleting = true) :
    v'.Loose r' := by
  rcases loose with ⟨_, running'', gone⟩ | ⟨deleting, known⟩
  · cases running.symm.trans running''
    exact .inl ⟨q, running', dropped gone⟩
  · refine .inr ⟨deleted deleting, fun q' h running'' held' => ?_⟩
    cases running'.symm.trans running''
    obtain ⟨g, before, same⟩ := held h held'
    exact same ▸ known p g running before

theorem Holding.moved (holding : Holding n v) {h : Copy Reshard} {status : ReshardStatus} (stored : v.stored = some h.obj)
    (move : Move p h.obj status) (claimed : v.claimed) (uncommitted : status.switchCommitted = false)
    (unfailed : status.phase ≠ .failed) : (∃ x, v.source = some x ∧ x.claim = n) ∨ v.Loose h.obj := by
  refine holding h.obj stored claimed ?_ fun failed => unfailed (move.keeps_failure failed)
  cases before : h.obj.status.switchCommitted with
  | false => rfl
  | true => exact absurd (move.keeps_commit before) (by simp [uncommitted])

theorem Sound.drops (sound : Sound n v) {h : Copy Reshard} {old : Shard} {version : Nat} {answer : Wrote}
    (running : v.pass = some p) (free : p.stuck = false) (held : p.held = some h) (stored : v.stored = some r)
    (uncommitted : r.status.switchCommitted = false) (known : (∃ size, answer = .stored size) ∨ answer = .failed) :
    (p.wroteShard ⟨version, { old with claim := "" }⟩ answer).dropped = true := by
  obtain ⟨-, -, status, -⟩ := sound.same running free held stored
  have open_ : p.committed = false := by simp [Pass.committed, held, ← status, uncommitted]
  rcases known with ⟨_, rfl⟩ | rfl <;> simp [Pass.wroteShard, open_]

section

variable (holding : Holding n v)
include holding

theorem Holding.edited (sound : Sound n v) (rooted : Rooted n s v) {h : Copy Reshard}
    {old new : Shard} {version : Nat} {answer : Wrote} (running : v.pass = some p) (free : p.stuck = false)
    (held : p.held = some h) (source : v.source = some old) (edit : ShardEdit p h.obj old new)
    (known : (∃ size, answer = .stored size) ∨ answer = .failed) :
    Holding n { v with
      source := some new
      claimed := v.claimed ∨ new.claim = n
      pass := some (p.wroteShard ⟨version, new⟩ answer) } := by
  intro r stored claimed uncommitted unfailed
  -- the edits that leave the claim alone
  have same : new.claim = old.claim → (∃ x, some new = some x ∧ x.claim = n) ∨ Scene.Loose { v with
      source := some new
      claimed := v.claimed ∨ new.claim = n
      pass := some (p.wroteShard ⟨version, new⟩ answer) } r := by
    intro kept
    have before : v.claimed := claimed.elim id fun own => rooted.carried source (kept.symm.trans own)
    refine (holding r stored before uncommitted unfailed).imp ?_ fun loose => ?_
    · rintro ⟨x, found, own⟩
      cases source.symm.trans found
      exact ⟨new, rfl, kept.trans own⟩
    · exact loose.pass running rfl (fun h held => ⟨h, by simpa using held, rfl⟩) (Pass.wroteShard_dropped p _ answer) id
  cases edit with
  | claim => exact .inl ⟨_, rfl, sound.named running⟩
  | release => exact .inr (.inl ⟨_, rfl, sound.drops running free held stored uncommitted known⟩)
  | hide | serve => exact same rfl

theorem Holding.deed (sound : Sound n v) (rooted : Rooted n s v)
    (running : v.pass = some p) (deed : Deed n s v p v') : Holding n v' := by
  cases deed with
  | learned learns =>
    intro r stored claimed uncommitted unfailed
    exact (holding r stored claimed uncommitted unfailed).imp_right (learns.loose running stored)
  | @moved h status version free held stored here move =>
    rintro _ ⟨⟩ claimed uncommitted unfailed
    refine (holding.moved stored move claimed uncommitted unfailed).imp_right fun loose => ?_
    refine loose.pass running rfl ?_ id id
    rintro _ ⟨⟩
    exact ⟨h, held, rfl⟩
  | @movedUnknown h status free held stored here move =>
    rintro _ ⟨⟩ claimed uncommitted unfailed
    refine (holding.moved stored move claimed uncommitted unfailed).imp_right fun loose => ?_
    exact loose.pass running rfl (fun h held => ⟨h, held, rfl⟩) id id
  | @pinned h version finalizers held stored =>
    rintro _ ⟨⟩ claimed uncommitted unfailed
    refine (holding _ stored claimed uncommitted unfailed).imp_right fun loose => ?_
    refine loose.pass running rfl ?_ id id
    rintro _ ⟨⟩
    exact ⟨h, held, rfl⟩
  | unpinned => exact fun _ stored => absurd stored.symm (Option.some_ne_none _)
  | pinnedUnknown finalizers held stored =>
    rintro _ ⟨⟩ claimed uncommitted unfailed
    refine (holding _ stored claimed uncommitted unfailed).imp_right fun loose => ?_
    exact loose.pass running running (fun h held => ⟨h, held, rfl⟩) id id
  | edited free held source edit known => exact holding.edited sound rooted running free held source edit known
  | fenced _ _ _ _ known | emitted _ _ _ _ _ known =>
    intro r stored claimed uncommitted unfailed
    refine (holding r stored claimed uncommitted unfailed).imp_right fun loose => ?_
    rcases known with rfl | ⟨_, rfl⟩ <;> exact loose.pass running rfl (fun h held => ⟨h, held, rfl⟩) id id
  | lifted =>
    intro r stored claimed uncommitted unfailed
    refine (holding r stored claimed uncommitted unfailed).imp_right fun loose => ?_
    exact loose.pass running rfl (fun h held => ⟨h, held, rfl⟩) id id

theorem Holding.source {y : Shard}
    (kept : ∀ x, v.source = some x → x.claim = n → y.claim = n) : Holding n { v with source := some y } := by
  intro r stored claimed uncommitted unfailed
  refine (holding r stored claimed uncommitted unfailed).imp_left ?_
  rintro ⟨x, source, own⟩
  exact ⟨y, rfl, kept x source own⟩

theorem Holding.step (sound : Sound n v) (rooted : Rooted n s v) (named : n ≠ "")
    (settled : DropSettled v v') (step : Scene.Step n s v v') : Holding n v' := by
  cases step with
  | own running deed => exact holding.deed sound rooted running deed
  | began idle =>
    intro r stored claimed uncommitted unfailed
    refine (holding r stored claimed uncommitted unfailed).imp_right ?_
    rintro (⟨p, running, -⟩ | ⟨deleting, -⟩)
    · cases idle.symm.trans running
    · refine .inr ⟨deleting, ?_⟩
      rintro _ h ⟨⟩ held
      cases held
  | ended =>
    intro r stored claimed uncommitted unfailed
    refine (holding r stored claimed uncommitted unfailed).imp_right fun loose => .inr ⟨?_, ?_⟩
    · rcases loose with ⟨p, running, dropped⟩ | ⟨deleting, -⟩
      · exact (settled p r running rfl dropped stored).resolve_right unfailed
      · exact deleting
    · exact fun _ _ ended => absurd ended.symm (Option.some_ne_none _)
  | born _ _ unclaimed => exact fun _ _ claimed => absurd claimed unclaimed
  | retagged before retagged =>
    cases retagged with
    | gone => exact fun _ stored => absurd stored.symm (Option.some_ne_none _)
    | kept finalizers deleting stays =>
      rintro _ ⟨⟩ claimed uncommitted unfailed
      refine (holding _ before claimed uncommitted unfailed).imp_right ?_
      exact Or.imp_right fun known => ⟨stays known.1, known.2⟩
  | appeared absent => exact holding.source fun x stored => absurd (absent.symm.trans stored).symm (Option.some_ne_none _)
  | changed stored _ claim =>
    refine holding.source fun x found own => ?_
    cases stored.symm.trans found
    exact claim.trans own
  | taken stored free =>
    refine holding.source fun x found own => ?_
    cases stored.symm.trans found
    exact absurd (own.symm.trans free) named
  | givenBack stored other =>
    refine holding.source fun x found own => ?_
    cases stored.symm.trans found
    exact absurd own other
  | served stored =>
    refine holding.source fun x found own => ?_
    cases stored.symm.trans found
    exact own
  | _ => exact holding

theorem Holding.owns (rooted : Rooted n s v) (stored : v.stored = some r)
    (phase : r.status.phase = .cuttingOver) (uncommitted : r.status.switchCommitted = false)
    (alive : r.deleting = false) (kept : ∀ p, v.pass = some p → p.dropped = false) :
    ∃ x, v.source = some x ∧ x.claim = n := by
  rcases holding r stored (rooted.cutting (.inl stored) phase) uncommitted (by simp [phase]) with
    owns | ⟨p, running, dropped⟩ | ⟨deleting, -⟩
  · exact owns
  · exact absurd dropped (by simp [kept p running])
  · exact absurd deleting (by simp [alive])

end

end PgShard.Operator
