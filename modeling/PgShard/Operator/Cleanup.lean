import PgShard.Operator.Failure

/-! What a reshard being deleted leaves at its source once it drops its finalizer. -/

namespace PgShard.Operator

open Versioned

variable {y : Shard} {reply : Reply}

variable {w w' after : World} {n s : String} {c : Choice} {v v' : Scene} {p q : Pass} {r : Reshard}

/-! ## A fence is owed for as long as it stands -/

/-- A fence of an open reshard is on its record, and the source carries its claim. A
pass that has lifted the fence, or has seen the claim of another, is right. -/
structure Owing (n : String) (v : Scene) : Prop where
  owed : ∀ {r f}, v.stored = some r → r.status.switchCommitted = false → v.database.fence = some f →
    f.owner = r.uid → r.status.sourceFenced = true
  claimed : ∀ {r f}, v.stored = some r → r.status.switchCommitted = false → v.database.fence = some f →
    f.owner = r.uid → ∃ x, v.source = some x ∧ x.claim = n
  lifted : ∀ {p}, v.pass = some p → p.lifted = true → p.unfenced = true ∧
    ∀ {r f}, v.stored = some r → v.database.fence = some f → f.owner ≠ r.uid
  disowned : ∀ {p x}, v.pass = some p → p.owns = some false → v.source = some x → x.claim ≠ n

theorem Move.settles {status : ReshardStatus} (move : Move p r status) (owed : r.status.sourceFenced = true) :
    status.sourceFenced = true ∨ p.lifted = true ∨ p.owns = some false := by
  cases move with
  | oweFence => exact .inl rfl
  | rolledBack _ _ _ _ _ _ settled | settled _ _ settled => exact .inr (settled owed)
  | _ => exact .inl owed

theorem Owing.owed_step (owing : Owing n v) (sound : Sound n v) (step : Scene.Step n s v v') {f : Fence}
    (stored : v'.stored = some r) (open_ : r.status.switchCommitted = false) (fence : v'.database.fence = some f)
    (own : f.owner = r.uid) : r.status.sourceFenced = true := by
  rcases step.fence_owner fence with ⟨g, before, same⟩ | ⟨p, h, running, free, held, -, -, freezing, -, kept, -⟩ | other
  · cases step.stored stored with
    | kept stored' uid status =>
      rw [status] at open_ ⊢
      exact owing.owed stored' open_ before (same.trans (own.trans uid))
    | moved running free held stored' move new =>
      subst new
      have own := same.trans own
      have open_ := move.still_open open_
      rcases move.settles (owing.owed stored' open_ before own) with owed | lifted | disowned
      · exact owed
      · have spared := (owing.lifted running lifted).2 stored' before
        exact absurd own spared
      · obtain ⟨x, source, claim⟩ := owing.claimed stored' open_ before own
        exact absurd claim (owing.disowned running disowned source)
    | born new _ _ unowned =>
      subst new
      exact absurd own (unowned f fence)
  · obtain ⟨-, -, status, -⟩ := sound.same running free held (kept ▸ stored)
    exact status ▸ freezing.owed
  · exact absurd own.symm (other r stored)

theorem Owing.claimed_step (owing : Owing n v) (sound : Sound n v) (rooted : Rooted n s v) (holding : Holding n v)
    (named : n ≠ "") (step : Scene.Step n s v v') {f : Fence} (stored : v'.stored = some r)
    (open_ : r.status.switchCommitted = false) (fence : v'.database.fence = some f) (own : f.owner = r.uid) :
    ∃ x, v'.source = some x ∧ x.claim = n := by
  rcases step.fence_owner fence with ⟨g, before, same⟩ | ⟨p, h, running, free, held, -, undropped, freezing, -, kept, source⟩ | other
  · obtain ⟨old, stored', open_', own'⟩ : ∃ old, v.stored = some old ∧ old.status.switchCommitted = false ∧
        g.owner = old.uid := by
      cases step.stored stored with
      | @kept old stored' uid status => exact ⟨old, stored', status ▸ open_, same.trans (own.trans uid)⟩
      | moved _ _ _ stored' move new =>
        subst new
        exact ⟨_, stored', move.still_open open_, same.trans own⟩
      | born new _ _ unowned =>
        subst new
        exact absurd own (unowned f fence)
    obtain ⟨x, source, claim⟩ := owing.claimed stored' open_' before own'
    rcases step.claim_kept named source claim with still | ⟨p, h, running, free, held, -, -, unowed⟩
    · exact still
    · -- the claim is given up only once the fence is off the record
      obtain ⟨-, -, status, -⟩ := sound.same running free held stored'
      have pinned := rooted.claimant (.inl stored') (rooted.carried source claim)
      obtain ⟨y, source', uid⟩ := rooted.pinned (.inl stored') pinned
      cases source.symm.trans source'
      rw [← status] at unowed
      rcases unowed open_' with unfenced | other
      · cases unfenced.symm.trans (owing.owed stored' open_' before own')
      · exact absurd uid.symm other
  · have stored : v.stored = some r := kept ▸ stored
    obtain ⟨-, -, status, -⟩ := sound.same running free held stored
    have phase : r.status.phase = .cuttingOver := status ▸ freezing.phase
    rw [source]
    rcases holding r stored (rooted.cutting (.inl stored) phase) open_ (by simp [phase]) with own | loose
    · exact own
    · rcases loose with ⟨q, running', dropped⟩ | ⟨-, known⟩
      · cases running.symm.trans running'
        cases dropped.symm.trans undropped
      · cases freezing.alive.symm.trans (known p h running held)
  · exact absurd own.symm (other r stored)

@[simp] theorem Pass.wroteShard_lifted (p : Pass) (x : Copy Shard) (answer : Wrote) :
    (p.wroteShard x answer).lifted = p.lifted := by
  cases answer <;> rfl

@[simp] theorem Pass.wroteShard_unfenced (p : Pass) (x : Copy Shard) (answer : Wrote) :
    (p.wroteShard x answer).unfenced = p.unfenced := by
  cases answer <;> rfl

@[simp] theorem Pass.wroteShard_owns (p : Pass) (x : Copy Shard) (answer : Wrote) :
    (p.wroteShard x answer).owns = none := by
  cases answer <;> rfl

theorem Scene.Step.lifted (step : Scene.Step n s v v') (running' : v'.pass = some q) (lifted : q.lifted = true) :
    (∃ p, v.pass = some p ∧ p.lifted = true ∧ (p.unfenced = true → q.unfenced = true)) ∨
      q.unfenced = true ∧ v'.database.fence = none := by
  have same : v'.pass = v.pass → ∃ p, v.pass = some p ∧ p.lifted = true ∧ (p.unfenced = true → q.unfenced = true) :=
    fun same => ⟨q, same.symm.trans running', lifted, id⟩
  cases step with
  | own running deed =>
    cases deed with
    | lifted =>
      cases running'
      exact .inr ⟨rfl, rfl⟩
    | learned learns =>
      cases running'
      cases learns with
      | tried =>
        rw [Pass.wroteShard_lifted] at lifted
        exact .inl ⟨_, running, lifted, by rw [Pass.wroteShard_unfenced]; exact id⟩
      | liftTried => exact .inl ⟨_, running, lifted, fun _ => rfl⟩
      | _ => exact .inl ⟨_, running, lifted, id⟩
    | moved | movedUnknown | pinned | unpinned =>
      cases running'
      exact .inl ⟨_, running, lifted, id⟩
    | pinnedUnknown => exact .inl (same rfl)
    | edited =>
      cases running'
      rw [Pass.wroteShard_lifted] at lifted
      exact .inl ⟨_, running, lifted, by rw [Pass.wroteShard_unfenced]; exact id⟩
    | fenced _ _ _ _ known | emitted _ _ _ _ _ known =>
      cases running'
      rcases known with rfl | ⟨_, rfl⟩ <;> exact .inl ⟨_, running, lifted, id⟩
  | began =>
    cases running'
    cases lifted
  | ended => cases running'
  | _ => exact .inl (same rfl)

theorem Owing.lifted_step (owing : Owing n v) (step : Scene.Step n s v v') (running' : v'.pass = some q)
    (lifted : q.lifted = true) : q.unfenced = true ∧
      ∀ {r f}, v'.stored = some r → v'.database.fence = some f → f.owner ≠ r.uid := by
  rcases step.lifted running' lifted with ⟨p, running, before, kept⟩ | ⟨unfenced, fence⟩
  · obtain ⟨unfenced, spared⟩ := owing.lifted running before
    refine ⟨kept unfenced, fun {r f} stored fence own => ?_⟩
    rcases step.fence_owner fence with ⟨g, stands, same⟩ | ⟨p', -, running', -, -, fencing, -⟩ | other
    · cases step.stored stored with
      | kept stored' uid => exact spared stored' stands (same.trans (own.trans uid))
      | moved _ _ _ stored' _ new =>
        subst new
        exact spared stored' stands (same.trans own)
      | born new _ _ unowned =>
        subst new
        exact unowned f fence own
    · cases running.symm.trans running'
      cases unfenced.symm.trans fencing
    · exact other r stored own.symm
  · exact ⟨unfenced, fun _ stands => absurd (stands.symm.trans fence) (Option.some_ne_none _)⟩

theorem Scene.Step.unclaimed (step : Scene.Step n s v v') (named : n ≠ "")
    (before : ∀ x, v.source = some x → x.claim ≠ n) (source : v'.source = some y) :
    y.claim ≠ n ∨ ∃ p q h, v.pass = some p ∧ v'.pass = some q ∧ p.held = some h ∧ h.obj.deleting = false ∧ q.owns = none := by
  have same : v.source = some y → y.claim ≠ n := before y
  cases step with
  | own running deed =>
    cases deed with
    | edited free held stored edit =>
      cases source
      cases edit with
      | claim _ _ alive => exact .inr ⟨_, _, _, running, rfl, held, alive, by simp⟩
      | release => exact .inl named.symm
      | hide | serve => exact .inl (before _ stored :)
    | _ => exact .inl (same source)
  | appeared _ free =>
    cases source
    exact .inl fun own => named (own.symm.trans free)
  | changed stored _ claim =>
    cases source
    exact .inl (claim ▸ before _ stored)
  | taken _ _ _ other =>
    cases source
    exact .inl other
  | givenBack =>
    cases source
    exact .inl named.symm
  | served stored =>
    cases source
    exact .inl (before _ stored :)
  | _ => exact .inl (same source)

theorem Scene.Step.disowned (step : Scene.Step n s v v') (running' : v'.pass = some q) (disowned : q.owns = some false) :
    (∃ p, v.pass = some p ∧ p.owns = some false) ∨ ∃ x, v.source = some x ∧ x.claim ≠ n ∧ v'.source = v.source := by
  have same : v'.pass = v.pass → ∃ p, v.pass = some p ∧ p.owns = some false :=
    fun same => ⟨q, same.symm.trans running', disowned⟩
  cases step with
  | own running deed =>
    cases deed with
    | learned learns =>
      cases running'
      cases learns with
      | readClaim stored => exact .inr ⟨_, stored, by simpa using disowned, rfl⟩
      | tried => simp at disowned
      | served | disowned => cases disowned
      | _ => exact .inl ⟨_, running, disowned⟩
    | edited =>
      cases running'
      simp at disowned
    | pinnedUnknown => exact .inl (same rfl)
    | fenced _ _ _ _ known | emitted _ _ _ _ _ known =>
      cases running'
      rcases known with rfl | ⟨_, rfl⟩ <;> exact .inl ⟨_, running, disowned⟩
    | _ =>
      cases running'
      exact .inl ⟨_, running, disowned⟩
  | began =>
    cases running'
    cases disowned
  | ended => cases running'
  | _ => exact .inl (same rfl)

theorem Owing.disowned_step (owing : Owing n v) (named : n ≠ "") (step : Scene.Step n s v v') (running' : v'.pass = some q)
    (disowned : q.owns = some false) (source : v'.source = some y) : y.claim ≠ n := by
  have before : ∀ x, v.source = some x → x.claim ≠ n := by
    rcases step.disowned running' disowned with ⟨p, running, known⟩ | ⟨x, found, other, -⟩
    · exact fun x found => owing.disowned running known found
    · intro _ found'
      cases found.symm.trans found'
      exact other
  rcases step.unclaimed named before source with other | ⟨_, _, _, -, running'', -, -, owns⟩
  · exact other
  · cases running'.symm.trans running''
    cases owns.symm.trans disowned

theorem Owing.step (owing : Owing n v) (sound : Sound n v) (rooted : Rooted n s v) (holding : Holding n v)
    (named : n ≠ "") (step : Scene.Step n s v v') : Owing n v' where
  owed := owing.owed_step sound step
  claimed := owing.claimed_step sound rooted holding named step
  lifted := owing.lifted_step step
  disowned := fun running disowned => owing.disowned_step named step running disowned

theorem Owing.start (n s : String) : Owing n (World.scene {} n s) where
  owed := fun stored => by cases stored
  claimed := fun stored => by cases stored
  lifted := fun running => by cases running
  disowned := fun running => by cases running

/-! ## What a pass that cleans up has read -/

/-- The pass works on no reshard that is not being deleted. -/
def Pass.dying (p : Pass) : Prop :=
  ∀ h, p.held = some h → h.obj.deleting = true

/-- A pass that cleans up reads the source as it is then. -/
def CleanRead (s : String) (v v' : Scene) : Prop :=
  ∀ p q, v.pass = some p → v'.pass = some q → p.dying →
    (s ∈ q.unread → s ∈ p.unread ∨ v'.source = none) ∧
      ∀ c ∈ q.shards, c.obj.name = s → c ∈ p.shards ∨ v'.source = some c.obj

theorem Deed.dying (deed : Deed n s v p v') (running : v.pass = some p) (running' : v'.pass = some q) (dying : q.dying) :
    p.dying := by
  intro h held
  cases deed with
  | learned learns =>
    cases running'
    cases learns with
    | readSelf unheld => cases unheld.symm.trans held
    | tried => exact dying h (by simpa using held)
    | _ => exact dying h held
  | moved _ _ held' | pinned _ _ held' =>
    cases running'
    cases held.symm.trans held'
    exact (dying _ rfl :)
  | edited =>
    cases running'
    exact dying h (by simpa using held)
  | fenced _ _ _ _ known | emitted _ _ _ _ _ known =>
    cases running'
    rcases known with rfl | ⟨_, rfl⟩ <;> exact dying h held
  | pinnedUnknown =>
    cases running.symm.trans running'
    exact dying h held
  | _ =>
    cases running'
    exact dying h held

theorem Scene.Step.dying (step : Scene.Step n s v v') (running' : v'.pass = some q) (dying : q.dying) :
    (∃ p, v.pass = some p ∧ p.dying) ∨ q.unread = [] ∧ q.shards = [] := by
  have same : v'.pass = v.pass → ∃ p, v.pass = some p ∧ p.dying := fun same => ⟨q, same.symm.trans running', dying⟩
  cases step with
  | own running deed => exact .inl ⟨_, running, deed.dying running running' dying⟩
  | began =>
    cases running'
    exact .inr ⟨rfl, rfl⟩
  | ended => cases running'
  | _ => exact .inl (same rfl)

/-- What a pass that cleans up has read of the source still holds. -/
structure Cleaning (n s : String) (v : Scene) : Prop where
  missed : ∀ {p r}, v.pass = some p → p.dying → s ∈ p.unread → v.stored = some r → r.status.sourceShardUID = ""
  released : ∀ {p c x}, v.pass = some p → p.dying → c ∈ p.shards → c.obj.name = s → c.obj.claim ≠ n →
    v.source = some x → x.claim ≠ n
  hidden : ∀ {p c x}, v.pass = some p → p.dying → c ∈ p.shards → c.obj.name = s → c.obj.serving = false →
    v.committed → v.source = some x → x.serving = false

theorem Move.keeps_source {status : ReshardStatus} (move : Move p r status) (dying : r.deleting = true) :
    status.sourceShardUID = r.status.sourceShardUID := by
  cases move with
  | validated _ _ alive => cases alive.symm.trans dying
  | _ => rfl

theorem Cleaning.missed_step (cleaning : Cleaning n s v) (rooted : Rooted n s v') (read : CleanRead s v v')
    (step : Scene.Step n s v v') (running' : v'.pass = some q) (dying : q.dying) (unread : s ∈ q.unread)
    (stored : v'.stored = some r) : r.status.sourceShardUID = "" := by
  rcases step.dying running' dying with ⟨p, running, dying⟩ | ⟨nothing, -⟩
  · rcases (read p q running running' dying).1 unread with before | absent
    · have unpinned : ∀ old, v.stored = some old → old.status.sourceShardUID = "" :=
        fun _ stored => cleaning.missed running dying before stored
      cases step.stored stored with
      | kept stored' _ status => exact status ▸ unpinned _ stored'
      | moved running' _ held stored' move new =>
        cases running.symm.trans running'
        subst new
        exact (move.keeps_source (dying _ held)).trans (unpinned _ stored')
      | born new =>
        subst new
        rfl
    · by_contra pinned
      obtain ⟨x, source, -⟩ := rooted.pinned (.inl stored) pinned
      cases absent.symm.trans source
  · simp [nothing] at unread

theorem Cleaning.released_step (cleaning : Cleaning n s v) (named : n ≠ "") (read : CleanRead s v v')
    (step : Scene.Step n s v v') {x : Copy Shard} (running' : v'.pass = some q) (dying : q.dying)
    (held : x ∈ q.shards) (here : x.obj.name = s) (free : x.obj.claim ≠ n) (source : v'.source = some y) :
    y.claim ≠ n := by
  rcases step.dying running' dying with ⟨p, running, dying⟩ | ⟨-, nothing⟩
  · rcases (read p q running running' dying).2 x held here with before | current
    · rcases step.unclaimed named (fun _ found => cleaning.released running dying before here free found) source with
        other | ⟨_, _, h, running', -, held, alive, -⟩
      · exact other
      · cases running.symm.trans running'
        cases alive.symm.trans (dying h held)
    · cases current.symm.trans source
      exact free
  · simp [nothing] at held

theorem Cleaning.hidden_step (cleaning : Cleaning n s v) (sound : Sound n v) (rooted : Rooted n s v)
    (kept : NoReserve v v') (read : CleanRead s v v') (step : Scene.Step n s v v') {x : Copy Shard}
    (running' : v'.pass = some q) (dying : q.dying) (held : x ∈ q.shards) (here : x.obj.name = s)
    (out : x.obj.serving = false) (committed : v'.committed) (source : v'.source = some y) : y.serving = false := by
  rcases step.dying running' dying with ⟨p, running, dying⟩ | ⟨-, nothing⟩
  · rcases (read p q running running' dying).2 x held here with before | current
    · have committed : v.committed := by
        rcases step.commits committed with before | ⟨_, h, status, running', free, held, stored, move, switched⟩
        · exact before
        · cases running.symm.trans running'
          rcases move.commits switched with before | ⟨-, alive, -⟩
          · exact (sound.committed (.inl stored)).mpr before
          · cases alive.symm.trans (dying h held)
      obtain ⟨⟨z, source', -⟩, -⟩ := rooted.copies running before here
      have out := cleaning.hidden running dying before here out committed source'
      exact Bool.eq_false_iff.mpr fun back => kept z y source' source out back committed
    · cases current.symm.trans source
      exact out
  · simp [nothing] at held

theorem Cleaning.step (cleaning : Cleaning n s v) (sound : Sound n v) (rooted : Rooted n s v) (named : n ≠ "")
    (kept : NoReserve v v') (read : CleanRead s v v') (step : Scene.Step n s v v') : Cleaning n s v' where
  missed := cleaning.missed_step (rooted.step sound named step) read step
  released := cleaning.released_step named read step
  hidden := cleaning.hidden_step sound rooted kept read step

theorem Cleaning.start (n s : String) : Cleaning n s (World.scene {} n s) where
  missed := fun running => by cases running
  released := fun running => by cases running
  hidden := fun running => by cases running

/-! ## When the cleanup reads the source as it is -/

def cleanupFresh (w : World) : Choice → Bool
  | .advance n reply => (w.threads n).all fun t => t.pass.held.any (!·.obj.deleting) ||
    match w.pending n with
    | some (.getShard name) =>
      match reply with
      | .version i => decide ((w.shards name).read i = (w.shards name).latest)
      | _ => false
    | _ => true
  | _ => true

def tidy (w : World) (c : Choice) : Bool :=
  orderly w c && cleanupFresh w c

theorem Pass.dying_fresh (dying : p.dying) : p.held.any (!·.obj.deleting) = false := by
  rw [Option.any_eq_false]
  intro h held
  simp [dying h held]

theorem read_fresh {name : String} {got : Got (Copy Shard)}
    (fresh : (match reply with
      | .version i => decide ((w.shards name).read i = (w.shards name).latest)
      | _ => false) = true) (done : answerCached w (w.shards name) reply = some (after, got)) :
    after = w ∧ got = answerRead (w.shards name).latest := by
  cases reply with
  | version i =>
    cases done
    exact ⟨rfl, congrArg answerRead (of_decide_eq_true fresh)⟩
  | _ => cases fresh

theorem getShard_clean {name : String} {got : Got (Copy Shard)} (lawful : Lawful w)
    (fresh : (match reply with
      | .version i => decide ((w.shards name).read i = (w.shards name).latest)
      | _ => false) = true) (done : answerCached w (w.shards name) reply = some (after, got)) :
    (s ∈ (p.next (.getShard name) got).unread → s ∈ p.unread ∨ after.shard s = none) ∧
      ∀ x ∈ (p.next (.getShard name) got).shards, x.obj.name = s → x ∈ p.shards ∨ after.shard s = some x.obj := by
  obtain ⟨rfl, rfl⟩ := read_fresh fresh done
  cases latest : (after.shards name).latest with
  | none =>
    refine ⟨fun unread => ?_, fun x held _ => .inl held⟩
    rcases List.mem_cons.mp unread with rfl | before
    · exact .inr (History.latest_none latest)
    · exact .inl before
  | some y =>
    refine ⟨.inl, fun x held named => ?_⟩
    rcases List.mem_cons.mp held with rfl | before
    · have stored := History.latest_current latest
      have here := (lawful.shard stored).1.symm.trans named
      exact .inr (here ▸ stored)
    · exact .inl before

theorem updateShard_clean {y : Copy Shard} {answer : Wrote}
    (done : answerWrite w (w.putShard y) (w.shards y.obj.name).size reply = some (after, answer)) :
    ∀ x ∈ (p.next (.updateShard y) answer).shards, x.obj.name = s → x ∈ p.shards ∨ after.shard s = some x.obj := by
  intro x held named
  cases answer with
  | stored version =>
    rcases answerWrite_cases done with ⟨written, -⟩ | ⟨-, refused⟩
    · obtain ⟨-, rfl⟩ := putShard_cases written
      rcases List.mem_cons.mp held with rfl | before
      · exact .inr (by rw [World.shard_storeShard, if_pos named.symm])
      · exact .inl before
    · rcases refused with refused | refused <;> cases refused
  | conflict | failed => exact .inl held

theorem Happens.cleanRead (happens : Happens w c w') (lawful : Lawful w) (fresh : cleanupFresh w c = true) :
    CleanRead s (w.scene n s) (w'.scene n s) := by
  intro p q running running' dying
  obtain ⟨t, found, rfl⟩ := Option.map_eq_some_iff.mp running
  obtain ⟨t', found', rfl⟩ := Option.map_eq_some_iff.mp running'
  rcases happens.thread found found' with rfl | ⟨_, o, _, _, answer, rfl, calls, done, -, rfl, rfl⟩
  · exact ⟨.inl, fun x held _ => .inl held⟩
  by_cases reads : ∃ name, o = .getShard name
  · obtain ⟨name, rfl⟩ := reads
    simp only [cleanupFresh, found, Option.all_some, Pass.dying_fresh dying, World.pending_call found calls,
      Bool.false_or] at fresh
    exact (getShard_clean lawful fresh done :)
  · obtain ⟨unread, shards⟩ := (Pass.next_reads t.pass o answer).2 fun name same => reads ⟨name, same⟩
    refine ⟨fun missed => .inl (unread ▸ missed), ?_⟩
    by_cases writes : ∃ y, o = .updateShard y
    · obtain ⟨y, rfl⟩ := writes
      exact (updateShard_clean done :)
    · rw [shards fun y same => writes ⟨y, same⟩]
      exact fun x held _ => .inl held

/-! ## The finalizer is the last to go -/

/-- A scene in which fences are owed and cleanups know the source. -/
structure Tidy (n s : String) (v : Scene) : Prop where
  safe : Safe n s v
  owing : Owing n v
  cleaning : Cleaning n s v

def AllTidy (w : World) : Prop :=
  ∀ n s, n ≠ "" → Sourced n s w → Tidy n s (w.scene n s)

theorem ReachedUnder.tidy (reached : ReachedUnder tidy w) : AllTidy w := by
  refine reached.invariant (fun n s _ _ => ⟨.start n s, .start n s, .start n s⟩) ?_
  intro w c w' reached all fit taken n s named sourced
  obtain ⟨fit, fresh⟩ := Bool.and_eq_true_iff.mp fit
  have happens := step_happens reached.lawful taken
  have sourced := sourced.before happens.extends
  obtain ⟨step, drop, lift, hidden⟩ := orderly_scene reached fit taken named sourced
  obtain ⟨safe, owing, cleaning⟩ := all n s named sourced
  exact ⟨safe.step named drop lift hidden step, owing.step safe.sound safe.rooted safe.holding named step,
    cleaning.step safe.sound safe.rooted named hidden (happens.cleanRead reached.lawful fresh) step⟩

theorem tidy_nameNew (w : World) (c : Choice) (fit : tidy w c = true) : nameNew w c = true :=
  orderly_nameNew w c (Bool.and_eq_true_iff.mp fit).1

theorem Acted.unpins (acted : Acted w p after q) (stored : w.reshard p.name = some r)
    (kept : cutoverClaimFinalizer ∈ r.finalizers)
    (dropped : ∀ r', after.reshard p.name = some r' → cutoverClaimFinalizer ∉ r'.finalizers) :
    (∃ h, p.held = some h ∧ h.obj = r) ∧ Cleaned p r ∧ after.shards = w.shards ∧ after.databases = w.databases := by
  have same : w.reshard p.name = after.reshard p.name → False := fun same => dropped r (same ▸ stored) kept
  have now : ∀ new, (w.storeReshard p.name (some new)).reshard p.name = some new := fun new => by
    rw [World.reshard_storeReshard, if_pos rfl]
  cases acted with
  | moved _ held before | movedUnknown _ held before =>
    cases stored.symm.trans before
    have lost := dropped _ (now _)
    exact absurd kept lost
  | pinned finalizers held before cleaned | pinnedUnknown finalizers held before cleaned =>
    cases stored.symm.trans before
    exact ⟨⟨_, held, rfl⟩, cleaned kept (dropped _ (now _)), rfl, rfl⟩
  | unpinned held before cleaned =>
    cases stored.symm.trans before
    exact ⟨⟨_, held, rfl⟩, cleaned kept, rfl, rfl⟩
  | _ => exact (same rfl).elim

theorem Happens.unpins (happens : Happens w (.advance n reply) w') (lawful : Lawful w)
    (stored : w.reshard n = some r) (kept : cutoverClaimFinalizer ∈ r.finalizers)
    (dropped : ∀ r', w'.reshard n = some r' → cutoverClaimFinalizer ∉ r'.finalizers) :
    (∃ t h, w.threads n = some t ∧ t.pass.held = some h ∧ h.obj = r ∧ Cleaned t.pass r) ∧
      w'.shards = w.shards ∧ w'.databases = w.databases := by
  cases happens with
  | routed _ _ routing => cases routing
  | retagged _ _ retags => cases retags
  | acted running _ _ _ acted =>
    obtain rfl := (lawful.thread running).1
    obtain ⟨⟨h, held, same⟩, cleaned, shards, databases⟩ := acted.unpins stored kept dropped
    exact ⟨⟨_, h, running, held, same, cleaned⟩, shards, databases⟩

/-- A cleanup that drops the finalizer leaves the pinned source without the reshard's
claim, an open one without its fence, and a switched one out of service. -/
theorem finalizer_dropped_clean {reply : Reply} (reached : ReachedUnder tidy w)
    (taken : step w (.advance n reply) = some w') (stored : w.reshard n = some r)
    (kept : cutoverClaimFinalizer ∈ r.finalizers)
    (dropped : ∀ r', w'.reshard n = some r' → cutoverClaimFinalizer ∉ r'.finalizers) :
    ∀ x, w'.shard r.spec.sourceShard = some x → x.uid = r.status.sourceShardUID → x.claim ≠ n ∧
      (r.status.switchCommitted = false →
        ∀ f, (w'.databases r.spec.sourceShard).fence = some f → f.owner ≠ r.uid) ∧
      (r.status.switchCommitted = true → x.serving = false) := by
  have lawful := reached.reached.lawful
  have named := (lawful.reshard stored).2.1
  obtain ⟨⟨t, h, thread, held, rfl, deleting, cleaned⟩, shards, databases⟩ :=
    (step_happens lawful taken).unpins lawful stored kept dropped
  obtain ⟨safe, owing, cleaning⟩ := reached.tidy n _ named ((reached.oneObject tidy_nameNew).sourced stored)
  have running : (w.scene n h.obj.spec.sourceShard).pass = some t.pass := congrArg (Option.map Thread.pass) thread
  have dying : t.pass.dying := by
    intro g held'
    cases held.symm.trans held'
    exact deleting
  rw [databases]
  intro x source pinned
  replace source : w.shard h.obj.spec.sourceShard = some x :=
    (congrArg (fun shards => (shards h.obj.spec.sourceShard).current) shards).symm.trans source
  rcases cleaned with (unread | ⟨c, member, here, -, other⟩) | ⟨serving, ⟨c, member, here, free, rfl⟩, unowed, hidden⟩
  · have unpinned := cleaning.missed running dying unread stored
    exact absurd (pinned.trans unpinned) (safe.rooted.identified source)
  · obtain ⟨⟨y, source', uid⟩, -⟩ := safe.rooted.copies running member here
    cases source.symm.trans source'
    exact absurd (pinned.symm.trans uid) other
  · have free : c.obj.claim ≠ n := by
      rcases free with none | other
      · exact none ▸ named.symm
      · exact (lawful.thread thread).1 ▸ other
    refine ⟨cleaning.released running dying member here free source, fun open_ f fence own => ?_, fun committed => ?_⟩
    · cases (unowed open_).symm.trans (owing.owed stored open_ fence own)
    · exact cleaning.hidden running dying member here (hidden committed) (World.scene_committed stored committed) source

/-- The frozen split is deleted: its cleanup clears the gate, lifts the fence, gives
the claim back and is about to drop the finalizer. -/
def splitCleaned : List Choice :=
  splitToFrozen ++ .deleteReshard "split" :: begun "split" ([.version 12, .version 1, .done, .done, .done] ++ primarySeen ++
    [.done, .done] ++ primarySeen ++ [.done, .done])

/-- The next write of the reshard's pass drops the finalizer, and leaves this behind. -/
def World.unpins (w : World) (n : String) (left : World → Reshard → Shard → Bool) : Bool :=
  (w.reshard n).any fun r => r.finalizers.contains cutoverClaimFinalizer &&
    (step w (.advance n .done)).any fun w' => (w'.reshard n).all (!·.finalizers.contains cutoverClaimFinalizer) &&
      (w'.shard r.spec.sourceShard).any fun x => x.uid == r.status.sourceShardUID && left w' r x

theorem World.unpins_step {left : World → Reshard → Shard → Bool} (holds : w.unpins n left = true) :
    ∃ r w' x, w.reshard n = some r ∧ cutoverClaimFinalizer ∈ r.finalizers ∧ step w (.advance n .done) = some w' ∧
      (∀ r', w'.reshard n = some r' → cutoverClaimFinalizer ∉ r'.finalizers) ∧
      w'.shard r.spec.sourceShard = some x ∧ x.uid = r.status.sourceShardUID ∧ left w' r x = true := by
  obtain ⟨r, stored, holds⟩ := exists_of_any holds
  obtain ⟨kept, holds⟩ := Bool.and_eq_true_iff.mp holds
  obtain ⟨w', taken, holds⟩ := exists_of_any holds
  obtain ⟨dropped, holds⟩ := Bool.and_eq_true_iff.mp holds
  obtain ⟨x, source, holds⟩ := exists_of_any holds
  obtain ⟨pinned, holds⟩ := Bool.and_eq_true_iff.mp holds
  refine ⟨r, w', x, stored, by simpa using kept, taken, fun r' found => ?_, source, by simpa using pinned, holds⟩
  rw [found] at dropped
  simpa using dropped

set_option maxRecDepth 100000 in
theorem splitCleaned_ends : (runUnder tidy {} splitCleaned).any
    (·.unpins "split" fun _ r _ => !r.status.switchCommitted) = true := by
  decide +kernel

theorem finalizer_dropped_clean_split : ∃ w w' r x, ReachedUnder tidy w ∧ step w (.advance "split" .done) = some w' ∧
    w.reshard "split" = some r ∧ w'.shard r.spec.sourceShard = some x ∧ x.uid = r.status.sourceShardUID ∧
    x.claim ≠ "split" ∧ ∀ f, (w'.databases r.spec.sourceShard).fence = some f → f.owner ≠ r.uid := by
  obtain ⟨w, reached, holds⟩ := ReachedUnder.of_run splitCleaned_ends
  obtain ⟨r, w', x, stored, kept, taken, dropped, source, pinned, open_⟩ := World.unpins_step holds
  obtain ⟨unclaimed, unfenced, -⟩ := finalizer_dropped_clean reached taken stored kept dropped x source pinned
  exact ⟨w, w', r, x, reached, taken, stored, source, pinned, unclaimed, unfenced (by simpa using open_)⟩

set_option maxRecDepth 100000 in
theorem splitStranded_ends : (run {} (splitToFrozen ++ .deleteReshard "split" ::
    begun "split" [.version 12, .refused false, .done])).any (·.unpins "split" fun w' r x =>
      x.claim == "split" && !r.status.switchCommitted &&
        (w'.databases r.spec.sourceShard).fence.any (·.owner == r.uid)) = true := by
  decide +kernel

/-- A cleanup that fails to read the source drops the finalizer all the same: the
source keeps the claim and the fence. -/
theorem unread_source_stranded : ∃ w w' r x f, Reached w ∧ step w (.advance "split" .done) = some w' ∧
    w.reshard "split" = some r ∧ cutoverClaimFinalizer ∈ r.finalizers ∧
    (∀ r', w'.reshard "split" = some r' → cutoverClaimFinalizer ∉ r'.finalizers) ∧
    r.status.switchCommitted = false ∧ w'.shard r.spec.sourceShard = some x ∧ x.uid = r.status.sourceShardUID ∧
    x.claim = "split" ∧ (w'.databases r.spec.sourceShard).fence = some f ∧ f.owner = r.uid := by
  obtain ⟨w, reached, holds⟩ := Reached.of_run splitStranded_ends
  obtain ⟨r, w', x, stored, kept, taken, dropped, source, pinned, left⟩ := World.unpins_step holds
  obtain ⟨left, fence⟩ := Bool.and_eq_true_iff.mp left
  obtain ⟨claim, open_⟩ := Bool.and_eq_true_iff.mp left
  obtain ⟨f, stands, own⟩ := exists_of_any fence
  exact ⟨w, w', r, x, f, reached, taken, stored, kept, dropped, by simpa using open_, source, pinned,
    beq_iff_eq.mp claim, stands, beq_iff_eq.mp own⟩

end PgShard.Operator
