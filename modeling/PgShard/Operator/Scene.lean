import PgShard.Operator.Authority

/-! The cutover of one reshard as an abstract system, which the whole system refines. -/

namespace PgShard.Operator

open Versioned Effects Effects.Monitor
open Function (update_self update_of_ne)

variable {w w' after : World} {n s : String}

/-- What the cutover of a reshard turns on. `claimed` and `committed` remember
whether the source has carried the claim and whether the switch has committed. -/
structure Scene where
  now : Nat
  stored : Option Reshard
  source : Option Shard
  database : Database
  pass : Option Pass
  claimed : Prop
  committed : Prop

/-- The scene of the reshard `n` of the source `s`. -/
def World.scene (w : World) (n s : String) : Scene where
  now := w.now
  stored := w.reshard n
  source := w.shard s
  database := w.databases s
  pass := (w.threads n).map (·.pass)
  claimed := ∃ i x, (w.shards s).entry i = some x ∧ x.claim = n
  committed := ∃ i r, (w.reshards n).entry i = some r ∧ r.status.switchCommitted = true

/-- What a pass learns without changing the scene. -/
inductive Learns (n s : String) (v : Scene) (p : Pass) : Pass → Prop
  | heard (cluster : Option Cluster) (rejected : Bool)
      (named : cluster = p.cluster ∨ ∃ h c, p.held = some h ∧ c.name = h.obj.spec.clusterRef ∧ cluster = some c) :
      Learns n s v p { p with cluster, rejected }
  | noted (nodes : List String) (configs : Option (List TableConfig)) (routing : Option RoutingSpec)
      (waited : Option Nat) : Learns n s v p { p with nodes, configs, routing, waited }
  | readSelf {h : Copy Reshard} (unheld : p.held = none) (stored : v.stored = some h.obj) :
      Learns n s v p { p with held := some h }
  | readLive {r : Reshard} (stored : v.stored = some r) : Learns n s v p { p with liveOpen := p.sameOpen r }
  | missed (name : String) : Learns n s v p { p with unread := name :: p.unread }
  | readShard {c : Copy Shard} (source : c.obj.name = s → (∃ x, v.source = some x ∧ x.uid = c.obj.uid) ∧
      (c.obj.claim = n → v.claimed)) : Learns n s v p { p with shards := c :: p.shards }
  | readClaim {x : Shard} (stored : v.source = some x) : Learns n s v p { p with owns := some (x.claim == n) }
  | readClock : Learns n s v p { p with clock := some v.now, waited := some v.now }
  | gaveUp : Learns n s v p { p with stuck := true }
  | tried {h : Copy Reshard} {old new : Shard} {version : Nat} {answer : Wrote} (held : p.held = some h)
      (edit : ShardEdit p h.obj old new) (refused : answer = .conflict ∨ answer = .failed) :
      Learns n s v p (p.wroteShard ⟨version, new⟩ answer)
  | served {c : Copy Shard} (elsewhere : c.obj.name ≠ s) :
      Learns n s v p { p with shards := c :: p.shards, owns := none }
  | disowned : Learns n s v p { p with owns := none }
  | liftTried : Learns n s v p { p with unfenced := true }
  | replayed {h : Copy Reshard} {lsn : Nat} (held : p.held = some h)
      (recorded : lsn ≠ 0 → (⟨h.obj.uid, h.obj.status.cutoverAttempt⟩, lsn) ∈ v.database.journals) :
      Learns n s v p { p with barrier := some lsn }

def Database.raise (db : Database) (owner : String) : Database :=
  { db with fence := some ⟨(db.fence.map (·.since)).getD db.wal, owner⟩ }

def Database.lift (db : Database) : Database :=
  { db with fence := none }

def Database.record (db : Database) (id : JournalId) : Database :=
  { db with wal := db.wal + 1, journals := (id, db.wal + 1) :: db.journals }

/-- What the reshard's own pass does to the scene. -/
inductive Deed (n s : String) (v : Scene) (p : Pass) : Scene → Prop
  | learned {q : Pass} (learns : Learns n s v p q) : Deed n s v p { v with pass := some q }
  | moved {h : Copy Reshard} {status : ReshardStatus} (version : Nat) (free : p.stuck = false)
      (held : p.held = some h) (stored : v.stored = some h.obj) (here : h.obj.spec.sourceShard = s)
      (move : Move p h.obj status) :
      Deed n s v p { v with
        stored := some { h.obj with status }
        committed := v.committed ∨ status.switchCommitted = true
        pass := some (p.wroteStatus ⟨h.version, { h.obj with status }⟩ (.stored version)) }
  | movedUnknown {h : Copy Reshard} {status : ReshardStatus} (free : p.stuck = false)
      (held : p.held = some h) (stored : v.stored = some h.obj) (here : h.obj.spec.sourceShard = s)
      (move : Move p h.obj status) :
      Deed n s v p { v with
        stored := some { h.obj with status }
        committed := v.committed ∨ status.switchCommitted = true
        pass := some { p with stuck := true } }
  | pinned {h : Copy Reshard} (version : Nat) (finalizers : List String) (held : p.held = some h)
      (stored : v.stored = some h.obj) (here : h.obj.spec.sourceShard = s)
      (cleaned : cutoverClaimFinalizer ∈ h.obj.finalizers → cutoverClaimFinalizer ∉ finalizers → Cleaned p h.obj) :
      Deed n s v p { v with
        stored := some { h.obj with finalizers }
        pass := some { p with held := some ⟨version, { h.obj with finalizers }⟩ } }
  | unpinned {h : Copy Reshard} (held : p.held = some h) (stored : v.stored = some h.obj)
      (here : h.obj.spec.sourceShard = s) (cleaned : cutoverClaimFinalizer ∈ h.obj.finalizers → Cleaned p h.obj) (stuck : Bool)
      (still : p.stuck = true → stuck = true) :
      Deed n s v p { v with stored := none, pass := some { p with stuck } }
  | pinnedUnknown {h : Copy Reshard} (finalizers : List String) (held : p.held = some h)
      (stored : v.stored = some h.obj) (here : h.obj.spec.sourceShard = s)
      (cleaned : cutoverClaimFinalizer ∈ h.obj.finalizers → cutoverClaimFinalizer ∉ finalizers → Cleaned p h.obj) :
      Deed n s v p { v with stored := some { h.obj with finalizers } }
  | edited {h : Copy Reshard} {old new : Shard} {version : Nat} {answer : Wrote} (free : p.stuck = false)
      (held : p.held = some h) (stored : v.source = some old) (edit : ShardEdit p h.obj old new)
      (known : (∃ size, answer = .stored size) ∨ answer = .failed) :
      Deed n s v p { v with
        source := some new
        claimed := v.claimed ∨ new.claim = n
        pass := some (p.wroteShard ⟨version, new⟩ answer) }
  | fenced {h : Copy Reshard} (free : p.stuck = false) (held : p.held = some h)
      (kept : p.unfenced = false ∧ p.dropped = false) (freezing : Freezing h.obj s) {q : Pass}
      (known : q = { p with fenced := true } ∨ ∃ rejected, q = { p with rejected }) :
      Deed n s v p { v with database := v.database.raise h.obj.uid, pass := some q }
  | lifted {h : Copy Reshard} (free : p.stuck = false) (held : p.held = some h) (lifted : Bool)
      (still : p.lifted = true → lifted = true) (uncommitted : h.obj.status.switchCommitted = false) :
      Deed n s v p { v with database := v.database.lift, pass := some { p with unfenced := true, lifted } }
  | emitted {h : Copy Reshard} (free : p.stuck = false) (held : p.held = some h) (fenced : p.fenced = true)
      (kept : p.unfenced = false ∧ p.dropped = false) (freezing : Freezing h.obj s) {q : Pass}
      (known : q = { p with barrier := some (v.database.wal + 1) } ∨ ∃ rejected, q = { p with rejected }) :
      Deed n s v p { v with
        database := v.database.record ⟨h.obj.uid, h.obj.status.cutoverAttempt⟩
        pass := some q }

/-- One step of the scene: a deed of the reshard's own pass, the pass's beginning
or end, or what anybody else does. -/
inductive Scene.Step (n s : String) (v : Scene) : Scene → Prop
  | idle : Step n s v v
  | own {p : Pass} {v' : Scene} (running : v.pass = some p) (deed : Deed n s v p v') : Step n s v v'
  | began (idle : v.pass = none) : Step n s v { v with pass := some { name := n } }
  | ended : Step n s v { v with pass := none }
  | ticked (seconds : Nat) : Step n s v { v with now := v.now + seconds }
  | born {uid : String} {spec : ReshardSpec} (absent : v.stored = none) (unheld : ∀ p, v.pass = some p → p.held = none)
      (unclaimed : ¬ v.claimed) (open_ : ¬ v.committed) (unowned : ∀ f, v.database.fence = some f → f.owner ≠ uid)
      (unjournalled : ∀ id lsn, (id, lsn) ∈ v.database.journals → id.uid ≠ uid) :
      Step n s v { v with stored := some { name := n, uid, spec } }
  | retagged {r : Reshard} {new : Option Reshard} (stored : v.stored = some r) (retagged : Retagged r new) :
      Step n s v { v with stored := new }
  | appeared {x : Shard} (absent : v.source = none) (free : x.claim = "") (identified : x.uid ≠ "") :
      Step n s v { v with source := some x }
  | changed {x y : Shard} (stored : v.source = some x) (uid : y.uid = x.uid) (claim : y.claim = x.claim)
      (serving : y.serving = true → x.serving = true) : Step n s v { v with source := some y }
  | taken {m : String} {x : Shard} (stored : v.source = some x) (free : x.claim = "") (serving : x.serving = true)
      (other : m ≠ n) (named : m ≠ "") : Step n s v { v with source := some { x with claim := m } }
  | givenBack {x : Shard} (stored : v.source = some x) (other : x.claim ≠ n) :
      Step n s v { v with source := some { x with claim := "" } }
  | served {x : Shard} (stored : v.source = some x) : Step n s v { v with source := some { x with serving := true } }
  | fencedBy {owner : String} (other : ∀ r, v.stored = some r → r.uid ≠ owner) :
      Step n s v { v with database := v.database.raise owner }
  | liftedBy {x : Shard} (stored : v.source = some x) (other : x.claim ≠ n) (taken : x.claim ≠ "") :
      Step n s v { v with database := v.database.lift }
  | journalledBy {id : JournalId} (other : ∀ r, v.stored = some r → r.uid ≠ id.uid) :
      Step n s v { v with database := v.database.record id }
  | walExtended : Step n s v { v with database := { v.database with wal := v.database.wal + 1 } }

/-! ## The system refines its scenes -/

namespace World

variable {m : String}

theorem scene_setThread_self (w : World) (n s : String) (t : Option Thread) :
    (w.setThread n t).scene n s = { w.scene n s with pass := t.map (·.pass) } := by
  simp only [scene, setThread, update_self]
  rfl

theorem scene_setThread_of_ne (other : m ≠ n) (t : Option Thread) :
    (w.setThread m t).scene n s = w.scene n s := by
  simp only [scene, setThread, update_of_ne other.symm]
  rfl

theorem scene_storeReshard_of_ne {stored : Option Reshard} (other : m ≠ n) :
    (w.storeReshard m stored).scene n s = w.scene n s := by
  simp only [scene, storeReshard, reshard, update_of_ne other.symm]
  rfl

theorem scene_storeReshard_self (w : World) (n s : String) (stored : Option Reshard) :
    (w.storeReshard n stored).scene n s = { w.scene n s with
      stored
      committed := (w.scene n s).committed ∨ ∃ r, stored = some r ∧ r.status.switchCommitted = true } := by
  simp only [scene, storeReshard, reshard, update_self, History.current_push, History.exists_entry_push]
  rfl

theorem scene_storeShard_of_ne {x : Shard} (other : m ≠ s) : (w.storeShard m x).scene n s = w.scene n s := by
  simp only [scene, storeShard, shard, update_of_ne other.symm]
  rfl

theorem scene_storeShard_self (w : World) (n s : String) (x : Shard) :
    (w.storeShard s x).scene n s = { w.scene n s with
      source := some x
      claimed := (w.scene n s).claimed ∨ ∃ y, some x = some y ∧ y.claim = n } := by
  simp only [scene, storeShard, shard, update_self, History.current_push, History.exists_entry_push]
  rfl

theorem scene_setDatabase_of_ne {db : Database} (other : m ≠ s) :
    (w.setDatabase m db).scene n s = w.scene n s := by
  simp only [scene, setDatabase, update_of_ne other.symm]
  rfl

theorem scene_setDatabase_self (w : World) (n s : String) (db : Database) :
    (w.setDatabase s db).scene n s = { w.scene n s with database := db } := by
  simp only [scene, setDatabase, update_self]
  rfl

theorem scene_committed {r : Reshard} (stored : w.reshard n = some r) (committed : r.status.switchCommitted = true) :
    (w.scene n s).committed :=
  ⟨_, r, stored, committed⟩

theorem scene_claimed {x : Shard} (stored : w.shard s = some x) (claim : x.claim = n) : (w.scene n s).claimed :=
  ⟨_, x, stored, claim⟩

theorem shard_none (absent : (w.shards s).size = 0) : w.shard s = none := by
  cases stored : w.shard s with
  | none => rfl
  | some x =>
    have bound := History.lt_of_entry (World.entry_of_shard stored).choose_spec
    omega

theorem scene_storeReshard_same {stored : Option Reshard}
    (same : ∀ r, stored = some r → r.status.switchCommitted = true → (w.scene n s).committed) :
    (w.storeReshard n stored).scene n s = { w.scene n s with stored } := by
  rw [scene_storeReshard_self, propext (or_iff_left_of_imp _)]
  rintro ⟨r, new, committed⟩
  exact same r new committed

theorem scene_storeShard_same {x : Shard} (same : x.claim = n → (w.scene n s).claimed) :
    (w.storeShard s x).scene n s = { w.scene n s with source := some x } := by
  rw [scene_storeShard_self, propext (or_iff_left_of_imp _)]
  rintro ⟨y, ⟨⟩, claim⟩
  exact same claim

end World

/-- Every version of the reshard is one of the source `s`. -/
def Sourced (n s : String) (w : World) : Prop :=
  ∀ i r, (w.reshards n).entry i = some r → r.spec.sourceShard = s

theorem ShardEdit.at_source {p : Pass} {r : Reshard} {old new : Shard} (edit : ShardEdit p r old new)
    (elsewhere : old.name ≠ r.spec.sourceShard) :
    r.status.switchCommitted = true := by
  cases edit with
  | claim named | release named | hide named => exact absurd named elsewhere
  | serve _ committed => exact committed

theorem Pass.wroteShard_elsewhere {p : Pass} {h : Copy Reshard} {c : Copy Shard} {answer : Wrote} {size : Nat}
    (held : p.held = some h) (committed : h.obj.status.switchCommitted = true)
    (known : answer = .stored size ∨ answer = .failed) :
    p.wroteShard c answer = { p with shards := ⟨size, c.obj⟩ :: p.shards, owns := none } ∨
      p.wroteShard c answer = { p with owns := none } := by
  have switched : p.committed = true := by simp [Pass.committed, held, committed]
  rcases known with rfl | rfl
  · exact .inl (by simp [Pass.wroteShard, switched])
  · exact .inr (by simp [Pass.wroteShard, switched])

theorem sourceLost_serving {r : Reshard} {x : Shard} (fit : sourceLost r x = none) : x.serving = true := by
  unfold sourceLost at fit
  split at fit
  · cases fit
  · split at fit
    · cases fit
    · exact not_not.mp ‹_›

theorem scene_raised {owner database : String} (other : ∀ r, (w.scene n s).stored = some r → r.uid ≠ owner) :
    Scene.Step n s (w.scene n s) ((w.raiseFence database owner).scene n s) := by
  rw [World.raiseFence]
  by_cases here : database = s
  · subst here
    rw [World.scene_setDatabase_self]
    exact .fencedBy other
  · rw [World.scene_setDatabase_of_ne here]
    exact .idle

theorem scene_lifted {database : String}
    (other : database = s → ∃ x, (w.scene n s).source = some x ∧ x.claim ≠ n ∧ x.claim ≠ "") :
    Scene.Step n s (w.scene n s) ((w.liftFence database).scene n s) := by
  rw [World.liftFence]
  by_cases here : database = s
  · obtain ⟨x, stored, foreign, taken⟩ := other here
    subst here
    rw [World.scene_setDatabase_self]
    exact .liftedBy stored foreign taken
  · rw [World.scene_setDatabase_of_ne here]
    exact .idle

theorem scene_journalled {request : JournalRequest}
    (other : ∀ r, (w.scene n s).stored = some r → r.uid ≠ request.id.uid) :
    Scene.Step n s (w.scene n s) ((w.applyJournal request).scene n s) := by
  rw [World.applyJournal]
  by_cases here : request.database = s
  · subst here
    rw [World.scene_setDatabase_self]
    exact .journalledBy other
  · rw [World.scene_setDatabase_of_ne here]
    exact .idle

section Own

variable {p q : Pass}

theorem Acted.scene (acted : Acted w p after q) (lawful : Lawful w) (genuine : p.Genuine w) (named : p.name = n)
    (sourced : Sourced n s w) (running : (w.scene n s).pass = some p)
    (fresh : ∀ h, p.held = none → q.held = some h → w.reshard n = some h.obj) :
    Scene.Step n s (w.scene n s) { after.scene n s with pass := some q } := by
  subst named
  have source : ∀ {h : Copy Reshard}, p.held = some h → h.obj.spec.sourceShard = s :=
    fun {h} held => sourced _ _ (genuine.held h held).1
  have learns : ∀ {q}, Learns p.name s (w.scene p.name s) p q →
      Scene.Step p.name s (w.scene p.name s) { w.scene p.name s with pass := some q } :=
    fun learns => .own running (.learned learns)
  cases acted with
  | heard cluster rejected known => exact learns (.heard cluster rejected known)
  | readSelf unheld _ => exact learns (.readSelf unheld (fresh _ unheld rfl))
  | readLive stored => exact learns (.readLive stored)
  | missed name => exact learns (.missed name)
  | readConfigs => exact learns (.noted p.nodes _ p.routing p.waited)
  | readRouting => exact learns (.noted p.nodes p.configs _ _)
  | knewNode => exact learns (.noted _ p.configs p.routing p.waited)
  | madeNode _ _ _ _ _ known =>
    cases known with
    | true => exact learns (.noted _ p.configs p.routing p.waited)
    | false => exact learns (.noted p.nodes p.configs p.routing p.waited)
  | @readShard c read =>
    refine learns (.readShard fun here => ?_)
    subst here
    obtain ⟨x, stored⟩ := lawful.lasting read
    exact ⟨⟨x, stored, lawful.sameShard (World.entry_of_shard stored).choose_spec read⟩, fun claim => ⟨_, _, read, claim⟩⟩
  | readClaim held stored => exact learns (.readClaim (source held ▸ stored))
  | readClock => exact learns .readClock
  | gaveUp => exact learns .gaveUp
  | @moved h status free held stored move =>
    have deed := Deed.moved (n := p.name) (s := s) (v := w.scene p.name s) (w.reshards p.name).size free held stored (source held) move
    rw [World.scene_storeReshard_self]
    simpa using Scene.Step.own running deed
  | @movedUnknown h status free held stored move =>
    have deed := Deed.movedUnknown (n := p.name) (s := s) (v := w.scene p.name s) free held stored (source held) move
    rw [World.scene_storeReshard_self]
    simpa using Scene.Step.own running deed
  | @pinned h finalizers held stored cleaned =>
    rw [World.scene_storeReshard_same]
    · exact .own running (.pinned _ finalizers held stored (source held) cleaned)
    · rintro _ ⟨⟩ committed
      exact World.scene_committed stored committed
  | @unpinned h held stored cleaned known =>
    rw [World.scene_storeReshard_same fun _ new => absurd new.symm (Option.some_ne_none _)]
    cases known with
    | true => exact .own running (.unpinned held stored (source held) cleaned true fun _ => rfl)
    | false => exact .own running (.unpinned held stored (source held) cleaned p.stuck id)
  | @pinnedUnknown h finalizers held stored cleaned =>
    rw [World.scene_storeReshard_same]
    · rw [← running]
      exact .own running (.pinnedUnknown finalizers held stored (source held) cleaned)
    · rintro _ ⟨⟩ committed
      exact World.scene_committed stored committed
  | @edited h old new version answer free held stored edit known =>
    by_cases here : old.name = s
    · subst here
      have deed : Deed p.name old.name (w.scene p.name old.name) p { w.scene p.name old.name with
          source := some new, claimed := _, pass := some (p.wroteShard ⟨version, new⟩ answer) } :=
        .edited free held stored edit (known.imp_left fun same => ⟨_, same⟩)
      rw [World.scene_storeShard_self]
      simpa using Scene.Step.own running deed
    · rw [World.scene_storeShard_of_ne here]
      have committed := edit.at_source (by rwa [source held])
      rcases Pass.wroteShard_elsewhere (c := ⟨version, new⟩) held committed known with same | same
      · rw [same]
        exact learns (.served (by rwa [edit.name]))
      · rw [same]
        exact learns .disowned
  | tried free held edit refused => exact learns (.tried held edit refused)
  | @made x uid absent unused permitted =>
    obtain ⟨-, unclaimed, h, held, -⟩ := permitted
    have named : p.name ≠ "" := (lawful.reshard (genuine.held h held).1).2.1
    rw [← running]
    by_cases here : x.name = s
    · subst here
      rw [World.scene_storeShard_same]
      · exact .appeared (World.shard_none absent) unclaimed (Lawful.freshUid_not_mem unused).1
      · exact fun claim => absurd (claim.symm.trans unclaimed) named
    · rw [World.scene_storeShard_of_ne here]
      exact .idle
  | @fenced h database free held kept freezing =>
    have here : database = s := freezing.source.trans (source held)
    subst here
    rw [World.raiseFence, World.scene_setDatabase_self]
    exact .own running (.fenced free held kept freezing (.inl rfl))
  | @fencedUnknown h database rejected free held kept freezing =>
    have here : database = s := freezing.source.trans (source held)
    subst here
    rw [World.raiseFence, World.scene_setDatabase_self]
    exact .own running (.fenced free held kept freezing (.inr ⟨_, rfl⟩))
  | @lifted h free held authorised uncommitted =>
    rw [World.liftFence, source held, World.scene_setDatabase_self]
    exact .own running (.lifted free held true (fun _ => rfl) uncommitted)
  | liftedUnknown free held _ uncommitted =>
    rw [World.liftFence, source held, World.scene_setDatabase_self]
    exact .own running (.lifted free held p.lifted id uncommitted)
  | liftTried => exact learns .liftTried
  | deferred rejected => exact learns (.heard p.cluster rejected (.inl rfl))
  | @emitted request permitted =>
    obtain ⟨free, h, held, fenced, unfenced, undropped, freezing, id⟩ := permitted
    have here : request.database = s := freezing.source.trans (source held)
    rw [World.applyJournal, here, World.scene_setDatabase_self, id]
    exact .own running (.emitted free held fenced ⟨unfenced, undropped⟩ (here ▸ freezing) (.inl rfl))
  | @emittedUnknown request rejected permitted =>
    obtain ⟨free, h, held, fenced, unfenced, undropped, freezing, id⟩ := permitted
    have here : request.database = s := freezing.source.trans (source held)
    rw [World.applyJournal, here, World.scene_setDatabase_self, id]
    exact .own running (.emitted free held fenced ⟨unfenced, undropped⟩ (here ▸ freezing) (.inr ⟨_, rfl⟩))
  | @replayed request lsn permitted recorded =>
    obtain ⟨-, h, held, -, -, -, freezing, id⟩ := permitted
    have here : request.database = s := freezing.source.trans (source held)
    rw [here, id] at recorded
    exact learns (.replayed held recorded)

theorem Acted.scene_other (acted : Acted w p after q) (lawful : Lawful w) (genuine : p.Genuine w)
    (authorised : Authorised w p) (other : p.name ≠ n) (named : n ≠ "") :
    Scene.Step n s (w.scene n s) (after.scene n s) := by
  have apart : ∀ {h : Copy Reshard}, p.held = some h → ∀ r, (w.scene n s).stored = some r → r.uid ≠ h.obj.uid :=
    fun {h} held r stored same => other (lawful.apart (genuine.held h held).1 stored same.symm)
  -- only the live claim authorises a pass to lift a fence
  have foreign : ∀ {h : Copy Reshard}, p.held = some h → p.owns = some true → h.obj.spec.sourceShard = s →
      ∃ x, (w.scene n s).source = some x ∧ x.claim ≠ n ∧ x.claim ≠ "" := by
    intro h held owns here
    obtain ⟨h', x, held', stored, claim⟩ := authorised.owns owns
    cases held.symm.trans held'
    exact ⟨x, here ▸ stored, claim ▸ other, claim ▸ (lawful.reshard (genuine.held h held).1).2.1⟩
  cases acted with
  | moved | movedUnknown | pinned | unpinned | pinnedUnknown => exact World.scene_storeReshard_of_ne other ▸ .idle
  | @edited h old new version answer free held stored edit known =>
    by_cases here : old.name = s
    · subst here
      have pNamed : p.name ≠ "" := (lawful.reshard (genuine.held h held).1).2.1
      cases edit with
      | claim _ _ _ fit free =>
        rw [World.scene_storeShard_same fun claim => absurd claim other]
        exact .taken stored free (sourceLost_serving fit) other pNamed
      | release _ own =>
        rw [World.scene_storeShard_same fun claim => absurd claim.symm named]
        exact .givenBack stored (own ▸ other)
      | hide =>
        rw [World.scene_storeShard_same]
        · exact .changed stored rfl rfl nofun
        · exact fun claim => World.scene_claimed stored claim
      | serve =>
        rw [World.scene_storeShard_same]
        · exact .served stored
        · exact fun claim => World.scene_claimed stored claim
    · exact World.scene_storeShard_of_ne here ▸ .idle
  | @made x uid absent unused permitted =>
    by_cases here : x.name = s
    · subst here
      rw [World.scene_storeShard_same]
      · exact .appeared (World.shard_none absent) permitted.2.1 (Lawful.freshUid_not_mem unused).1
      · exact fun claim => absurd (claim.symm.trans permitted.2.1) named
    · rw [World.scene_storeShard_of_ne here]
      exact .idle
  | @fenced h database free held kept freezing | @fencedUnknown h database rejected free held kept freezing =>
    exact scene_raised (apart held)
  | lifted free held authority | liftedUnknown free held authority => exact scene_lifted (foreign held authority.1)
  | emitted permitted | emittedUnknown _ permitted =>
    obtain ⟨-, h, held, -, -, -, -, id⟩ := permitted
    exact scene_journalled (id ▸ apart held)
  | _ => exact .idle

end Own

/-- A reconcile that reads its reshard reads the version stored. -/
def FreshSelf (w w' : World) : Prop :=
  ∀ n t t' h, w.threads n = some t → w'.threads n = some t' → t.pass.held = none → t'.pass.held = some h →
    w.reshard n = some h.obj

/-- A reshard is created only under a name that none has had. -/
def NewNames (w w' : World) : Prop :=
  ∀ n, w.reshard n = none → w'.reshard n ≠ none → ∀ i, (w.reshards n).entry i = none

theorem Lawful.unheld (lawful : Lawful w) {p : Pass} (new : ∀ i, (w.reshards n).entry i = none)
    (running : (w.scene n s).pass = some p) : p.held = none := by
  obtain ⟨t, thread, rfl⟩ := Option.map_eq_some_iff.mp running
  obtain ⟨named, -, genuine⟩ := lawful.thread thread
  cases held : t.pass.held with
  | none => rfl
  | some h =>
    have found := (genuine.held h held).1
    rw [History.Genuine, named, new] at found
    cases found

/-- A call that has failed is not carried out any more. -/
def undelayed : Choice → Bool
  | .land _ => false
  | _ => true

/-- Everything that happens promptly is a step of every scene. -/
theorem Happens.scene {c : Choice} (happens : Happens w c w') (lawful : Lawful w) (authorised : AllAuthorised w)
    (prompt : undelayed c = true) (fresh : FreshSelf w w') (names : NewNames w w') (named : n ≠ "")
    (sourced : Sourced n s w) :
    Scene.Step n s (w.scene n s) (w'.scene n s) := by
  cases happens with
  | @started m idle =>
    by_cases here : m = n
    · subst here
      rw [World.scene_setThread_self]
      exact .began (by simp [World.scene, idle])
    · exact World.scene_setThread_of_ne here _ ▸ .idle
  | stopped m =>
    by_cases here : m = n
    · subst here
      rw [World.scene_setThread_self]
      exact .ended
    · exact World.scene_setThread_of_ne here _ ▸ .idle
  | @acted m _ t _ k after answer running _ _ _ acted =>
    obtain ⟨own, -, genuine⟩ := lawful.thread running
    by_cases here : m = n
    · subst here
      rw [World.scene_setThread_self]
      refine acted.scene lawful genuine own sourced (by simp [World.scene, running]) fun h unheld held => ?_
      exact fresh m t ⟨_, k answer⟩ h running (World.threads_setThread_self ..) unheld held
    · rw [World.scene_setThread_of_ne here]
      exact acted.scene_other lawful genuine (authorised m t running) (own ▸ here) named
  | routed | nodeMade | configured => exact .idle
  | @retagged m _ r new compiles stored retags =>
    change Scene.Step n s _ ((w.storeReshard m new).scene n s)
    by_cases here : m = n
    · subst here
      rw [World.scene_storeReshard_same]
      · exact .retagged stored retags.retagged
      · rintro r' rfl committed
        cases retags.retagged
        exact World.scene_committed stored committed
    · exact World.scene_storeReshard_of_ne here ▸ .idle
  | ticked seconds => exact .ticked seconds
  | @born m uid spec _ absent unused =>
    by_cases here : m = n
    · subst here
      have new := names m absent (by simp [World.reshard_storeReshard])
      obtain ⟨-, fresh⟩ := Lawful.freshUid_not_mem unused
      rw [World.scene_storeReshard_same]
      · refine .born absent (fun p running => lawful.unheld new running) ?_ ?_ ?_ ?_
        · rintro ⟨i, x, found, rfl⟩
          obtain ⟨j, r, entry⟩ := lawful.claims found named
          cases (new j).symm.trans entry
        · rintro ⟨i, r, found, -⟩
          cases (new i).symm.trans found
        · rintro f stands rfl
          exact fresh (lawful.fenced stands)
        · rintro id lsn member rfl
          exact fresh (lawful.journalled member)
      · rintro _ ⟨⟩ ⟨⟩
    · rw [World.scene_storeReshard_of_ne here]
      exact .idle
  | @appeared x absent unused =>
    by_cases here : x.name = s
    · subst here
      rw [World.scene_storeShard_same]
      · exact .appeared (World.shard_none absent) rfl (Lawful.freshUid_not_mem unused).1
      · exact fun claim => absurd claim.symm named
    · rw [World.scene_storeShard_of_ne here]
      exact .idle
  | @edited old x stored placed =>
    by_cases here : x.name = s
    · subst here
      rw [World.scene_storeShard_same]
      · exact .changed stored rfl rfl fun serving => (Bool.and_eq_true_iff.mp serving).1
      · exact fun claim => World.scene_claimed stored claim
    · rw [World.scene_storeShard_of_ne here]
      exact .idle
  | walExtended database =>
    by_cases here : database = s
    · subst here
      rw [World.scene_setDatabase_self]
      exact .walExtended
    · rw [World.scene_setDatabase_of_ne here]
      exact .idle
  | landed => cases prompt

end PgShard.Operator
