import PgShard.Operator.Steps

/-! What holds of every state of the system, and the list of everything that can
happen in one. -/

namespace PgShard.Operator

open Versioned Effects Effects.Monitor
open Function (update update_self update_of_ne)

variable {i : Nat} {r : Reshard} {x : Shard} {c : Choice} {choices : List Choice}

variable {w w' after : World} {p q : Pass} {n m : String}

/-! ## Reading an updated world -/

namespace World

variable {stored : Option Reshard} {shard : Shard} {db : Database} {thread : Option Thread}

@[simp] theorem reshards_storeReshard (w : World) (n : String) (stored : Option Reshard) :
    (w.storeReshard n stored).reshards = update w.reshards n ((w.reshards n).push stored) := rfl

@[simp] theorem shards_storeShard (w : World) (n : String) (shard : Shard) :
    (w.storeShard n shard).shards = update w.shards n ((w.shards n).push (some shard)) := rfl

theorem threads_setThread_self (w : World) (n : String) (thread : Option Thread) :
    (w.setThread n thread).threads n = thread :=
  update_self ..

theorem threads_setThread_of_ne (other : m ≠ n) : (w.setThread n thread).threads m = w.threads m :=
  update_of_ne other ..

theorem reshard_storeReshard (w : World) (n m : String) (stored : Option Reshard) :
    (w.storeReshard n stored).reshard m = if m = n then stored else w.reshard m := by
  by_cases same : m = n
  · subst same
    simp [World.reshard]
  · simp [World.reshard, same]

theorem shard_storeShard (w : World) (n m : String) (shard : Shard) :
    (w.storeShard n shard).shard m = if m = n then some shard else w.shard m := by
  by_cases same : m = n
  · subst same
    simp [World.shard]
  · simp [World.shard, same]

theorem entry_storeReshard_cases (found : ((w.storeReshard n stored).reshards m).entry i = some r) :
    (w.reshards m).entry i = some r ∨ m = n ∧ i = (w.reshards n).size ∧ stored = some r :=
  History.entry_store_cases found

theorem entry_storeShard_cases (found : ((w.storeShard n shard).shards m).entry i = some x) :
    (w.shards m).entry i = some x ∨ m = n ∧ i = (w.shards n).size ∧ shard = x :=
  (History.entry_store_cases found).imp_right fun ⟨here, last, new⟩ => ⟨here, last, Option.some.inj new⟩

theorem entry_storeReshard (found : (w.reshards m).entry i = some r) :
    ((w.storeReshard n stored).reshards m).entry i = some r :=
  History.entry_store found

theorem entry_storeShard (found : (w.shards m).entry i = some x) :
    ((w.storeShard n shard).shards m).entry i = some x :=
  History.entry_store found

end World

theorem World.carryOut_eq (w : World) (call : Late) : ∃ databases, w.carryOut call = { w with databases } := by
  cases call with
  | journal request => exact ⟨_, rfl⟩
  | fence owner request =>
    simp only [World.carryOut, World.applyFence]
    split <;> exact ⟨_, rfl⟩

theorem World.entry_of_shard (stored : w.shard n = some x) : ∃ i, (w.shards n).entry i = some x :=
  ⟨_, stored⟩

structure Extends (w w' : World) : Prop where
  reshards : ∀ {n i r}, (w.reshards n).entry i = some r → (w'.reshards n).entry i = some r
  shards : ∀ {n i x}, (w.shards n).entry i = some x → (w'.shards n).entry i = some x

theorem extends_storeReshard {stored : Option Reshard} : Extends w (w.storeReshard n stored) :=
  ⟨World.entry_storeReshard, fun found => found⟩

theorem extends_storeShard {shard : Shard} : Extends w (w.storeShard n shard) :=
  ⟨fun found => found, World.entry_storeShard⟩

theorem Pass.Genuine.extends (genuine : p.Genuine w) (extends_ : Extends w w') : p.Genuine w' :=
  ⟨fun h held => ⟨extends_.reshards (genuine.held h held).1, (genuine.held h held).2⟩,
    fun c member => extends_.shards (genuine.shards c member)⟩

theorem Pass.Genuine.start : Pass.Genuine w { name := n } :=
  ⟨fun _ held => absurd held.symm (Option.some_ne_none _), fun _ member => absurd member List.not_mem_nil⟩

theorem Acted.extends (acted : Acted w p after q) : Extends w after := by
  cases acted with
  | moved | movedUnknown | pinned | unpinned | pinnedUnknown => exact extends_storeReshard
  | edited => exact extends_storeShard
  | made => exact ⟨fun found => found, fun found => World.entry_storeShard found⟩
  | _ => exact ⟨fun found => found, fun found => found⟩

/-! ## Everything that can happen -/

/-- Who writes a reshard without moving its status: the routing controller its
finalizers, and others when they delete it or touch it. -/
inductive Retags (n : String) (r : Reshard) : Choice → Option Reshard → Prop
  | tagged {cluster : String} {reply : Reply} {new : Option Reshard}
      (kept : new = none ∧ r.deleting = true ∨ ∃ finalizers, new = some { r with finalizers }) :
      Retags n r (.advanceCompile cluster reply) new
  | deleted : Retags n r (.deleteReshard n) (if r.finalizers.isEmpty then none else some { r with deleting := true })
  | touched : Retags n r (.touchReshard n) (some r)

theorem Retags.retagged {new : Option Reshard} (retags : Retags n r c new) :
    Retagged r new := by
  cases retags with
  | tagged kept =>
    rcases kept with ⟨rfl, -⟩ | ⟨_, rfl⟩
    · exact .gone
    · exact .kept _ _ id
  | deleted =>
    split
    · exact .gone
    · exact .kept _ true fun _ => rfl
  | touched => exact .kept _ _ id

def Choice.routing : Choice → Bool
  | .compile _ _ => true
  | .advanceCompile _ _ => true
  | .stopCompile _ => true
  | _ => false

inductive Happens (w : World) : Choice → World → Prop
  | started {n : String} (idle : w.threads n = none) :
      Happens w (.start n) (w.setThread n (some ⟨{ name := n }, reconcile n⟩))
  | stopped (n : String) : Happens w (.stop n) (w.setThread n none)
  | acted {n : String} {reply : Reply} {thread : Thread} {o : Op} {k : Ans o → Ctl Unit} {after : World} {answer : Ans o}
      (running : w.threads n = some thread) (calls : thread.prog = .call o k)
      (done : exec w thread.pass o reply = some (after, answer)) (permitted : Permits thread.pass o)
      (acted : Acted w thread.pass after (thread.pass.next o answer))
      (obeys : protocol.Obeys (k answer) (thread.pass.next o answer) (fun _ _ => True) (fun _ _ => True)) :
      Happens w (.advance n reply) (after.setThread n (some ⟨thread.pass.next o answer, k answer⟩))
  | routed {c : Choice} (routings : String → History RoutingSpec) (compiles : String → Option RoutingThread)
      (routing : c.routing = true)
      (grows : ∀ name i spec, (w.routings name).entry i = some spec → (routings name).entry i = some spec) :
      Happens w c { w with routings, compiles }
  | retagged {n : String} {c : Choice} {r : Reshard} {new : Option Reshard}
      (compiles : String → Option RoutingThread) (stored : w.reshard n = some r) (retags : Retags n r c new) :
      Happens w c { w.storeReshard n new with compiles }
  | ticked (seconds : Nat) : Happens w (.tick seconds) { w with now := w.now + seconds }
  | born {name uid : String} (spec : ReshardSpec) (named : name ≠ "") (absent : w.reshard name = none)
      (fresh : w.freshUid uid = true) :
      Happens w (.createReshard name uid spec)
        (((w.useUid uid).useName name).storeReshard name (some { name, uid, spec }))
  | appeared {shard : Shard} (absent : (w.shards shard.name).size = 0) (fresh : w.freshUid shard.uid = true)
      (outsider : w.outsider shard.controller = true) (placeable : w.placeable shard.nodeRef = true) :
      Happens w (.createShard shard)
        (((w.noteOwner shard.controller).useUid shard.uid).storeShard shard.name { shard with claim := "" })
  | edited {old shard : Shard} (stored : w.shard shard.name = some old)
      (placed : shard.nodeRef = old.nodeRef ∨ w.placeable shard.nodeRef = true) :
      Happens w (.editShard shard) (w.storeShard shard.name (othersEdit old shard))
  | nodeMade {name : String} {controller : Option String} (absent : w.nodes name = none)
      (outsider : w.outsider controller = true) :
      Happens w (.createNode name controller) ((w.noteOwner controller).storeNode name controller)
  | configured (items : List TableConfig) : Happens w (.editConfigs items) (w.storeConfigs items)
  | walExtended (database : String) : Happens w (.extendWal database)
      (w.setDatabase database { w.databases database with wal := (w.databases database).wal + 1 })
  | landed {i : Nat} {call : Late} (databases : String → Database) (sent : w.late[i]? = some call)
      (carried : w.carryOut call = { w with databases }) :
      Happens w (.land i) { w with databases, late := w.late.eraseIdx i }

/-- What holds of every state: objects go by their names, UIDs name one object,
and a reconcile keeps to the protocol with copies that are genuine. -/
structure Lawful (w : World) : Prop where
  reshard : ∀ {n i r}, (w.reshards n).entry i = some r → r.name = n ∧ n ≠ "" ∧ r.uid ∈ w.uids ∧ n ∈ w.names
  apart : ∀ {n m i j r s}, (w.reshards n).entry i = some r → (w.reshards m).entry j = some s → r.uid = s.uid → n = m
  shard : ∀ {n i x}, (w.shards n).entry i = some x → x.name = n ∧ x.uid ≠ ""
  sameShard : ∀ {n i j x y}, (w.shards n).entry i = some x → (w.shards n).entry j = some y → x.uid = y.uid
  lasting : ∀ {n i x}, (w.shards n).entry i = some x → ∃ y, w.shard n = some y
  claims : ∀ {n i x}, (w.shards n).entry i = some x → x.claim ≠ "" → ∃ j r, (w.reshards x.claim).entry j = some r
  journalled : ∀ {d id lsn}, (id, lsn) ∈ (w.databases d).journals → id.uid ∈ w.uids
  fenced : ∀ {d f}, (w.databases d).fence = some f → f.owner ∈ w.uids
  sent : ∀ {call}, call ∈ w.late → call.uid ∈ w.uids
  thread : ∀ {n t}, w.threads n = some t → t.pass.name = n ∧
    protocol.Obeys t.prog t.pass (fun _ _ => True) (fun _ _ => True) ∧ t.pass.Genuine w

theorem execRouting_cases {o : RoutingOp} {answer : RoutingAns o} {reply : Reply}
    (done : execRouting w o reply = some (w', answer)) :
    (∃ routings, (∀ name i spec, (w.routings name).entry i = some spec → (routings name).entry i = some spec) ∧
      w' = { w with routings }) ∨
      ∃ n r new, w.reshard n = some r ∧ (new = none ∧ r.deleting = true ∨ ∃ finalizers, new = some { r with finalizers }) ∧
        w' = w.storeReshard n new := by
  have same : w' = w → (∃ routings, (∀ name i spec, (w.routings name).entry i = some spec →
      (routings name).entry i = some spec) ∧ w' = { w with routings }) := by
    rintro rfl
    exact ⟨w'.routings, fun _ _ _ found => found, rfl⟩
  have grown : ∀ name spec, w' = w.storeRouting name spec → (∃ routings, (∀ name i spec,
      (w.routings name).entry i = some spec → (routings name).entry i = some spec) ∧ w' = { w with routings }) := by
    rintro name spec rfl
    exact ⟨_, fun _ _ _ found => History.entry_store found, rfl⟩
  cases o with
  | listShards | listReshards | listTableConfigs | getNode name | getPod name =>
    exact .inl (same (answerGet_cases done).1)
  | getRouting name => exact .inl (same (answerCached_cases done).1)
  | updateReshard r =>
    rcases answerWrite_cases done with ⟨written, -⟩ | ⟨unchanged, -⟩
    · obtain ⟨current, stored, -, rfl⟩ := putReshard_cases written
      refine .inr ⟨_, current, _, stored, ?_, rfl⟩
      split
      · rename_i last
        exact .inl ⟨rfl, (Bool.and_eq_true_iff.mp last).1⟩
      · exact .inr ⟨_, rfl⟩
    · exact .inl (same unchanged)
  | createRouting name spec =>
    replace done : answerCreateRouting w name spec reply = some (w', answer) := done
    unfold answerCreateRouting at done
    split at done
    · split at done
      · cases done
        exact .inl (same rfl)
      · cases done
        exact .inl (grown name spec rfl)
    · split at done
      · cases done
        exact .inl (grown name spec rfl)
      · cases done
        exact .inl (same rfl)
    · cases done
  | updateRouting name spec =>
    rcases answerWrite_cases done with ⟨written, -⟩ | ⟨unchanged, -⟩
    · unfold World.putRouting at written
      split at written
      · exact .inl (grown name spec.obj (Option.some.inj written).symm)
      · cases written
    · exact .inl (same unchanged)

theorem step_happens (lawful : Lawful w) (taken : step w c = some w') : Happens w c w' := by
  cases c with
  | start name =>
    simp only [step] at taken
    split at taken
    · cases taken
    · cases taken
      exact .started ‹_›
  | advance name reply =>
    simp only [step] at taken
    split at taken
    · rename_i pass o k running
      obtain ⟨⟨after, answer⟩, done, rfl⟩ := Option.map_eq_some_iff.mp taken
      obtain ⟨-, ⟨permitted, continues⟩, genuine⟩ := lawful.thread running
      have gives := exec_gives (fun _ _ _ found => (lawful.reshard found).1) (fun _ _ _ found => (lawful.shard found).1)
        done
      exact .acted running rfl done permitted
        (exec_acted genuine (fun _ _ _ found => (lawful.shard found).1) permitted done) (continues answer gives)
    · cases taken
  | stop name =>
    cases taken
    exact .stopped name
  | compile cluster retries =>
    simp only [step] at taken
    split at taken
    · cases taken
    · cases taken
      exact .routed w.routings _ rfl fun _ _ _ found => found
  | advanceCompile cluster reply =>
    simp only [step] at taken
    split at taken
    · obtain ⟨⟨after, answer⟩, done, rfl⟩ := Option.map_eq_some_iff.mp taken
      rcases execRouting_cases done with ⟨routings, grows, rfl⟩ | ⟨n, r, new, stored, kept, rfl⟩
      · exact .routed routings _ rfl grows
      · exact .retagged _ stored (.tagged kept)
    · cases taken
  | stopCompile cluster =>
    cases taken
    exact .routed w.routings _ rfl fun _ _ _ found => found
  | tick seconds =>
    cases taken
    exact .ticked seconds
  | createReshard name uid spec =>
    simp only [step] at taken
    split at taken
    · rename_i fit
      cases taken
      exact .born spec fit.1 (by simpa using fit.2.1) fit.2.2
    · cases taken
  | deleteReshard name =>
    obtain ⟨r, stored, rfl⟩ := Option.map_eq_some_iff.mp taken
    exact .retagged w.compiles stored .deleted
  | touchReshard name =>
    obtain ⟨r, stored, rfl⟩ := Option.map_eq_some_iff.mp taken
    exact .retagged w.compiles stored .touched
  | createShard shard =>
    simp only [step] at taken
    split at taken
    · rename_i fit
      cases taken
      exact .appeared fit.1 fit.2.1 fit.2.2.1 fit.2.2.2
    · cases taken
  | editShard shard =>
    simp only [step] at taken
    split at taken
    · cases taken
    · split at taken
      · cases taken
        exact .edited ‹_› ‹_›
      · cases taken
  | createNode name controller =>
    simp only [step] at taken
    split at taken
    · rename_i fit
      cases taken
      exact .nodeMade (by simpa using fit.1) fit.2
    · cases taken
  | editConfigs items =>
    cases taken
    exact .configured items
  | extendWal database =>
    cases taken
    exact .walExtended database
  | land i =>
    obtain ⟨call, sent, rfl⟩ := Option.map_eq_some_iff.mp taken
    obtain ⟨databases, carried⟩ := w.carryOut_eq call
    rw [carried]
    exact .landed databases sent carried

/-! ## Every state is lawful -/

theorem Acted.name (acted : Acted w p after q) : q.name = p.name := by
  cases acted with
  | madeNode _ _ _ _ _ known | unpinned _ _ _ known => cases known <;> rfl
  | edited _ _ _ _ known => rcases known with rfl | rfl <;> rfl
  | tried _ _ _ refused => rcases refused with rfl | rfl <;> rfl
  | _ => rfl

theorem ShardEdit.uid {old new : Shard} (edit : ShardEdit p r old new) : new.uid = old.uid := by
  cases edit <;> rfl

theorem Acted.genuine (lawful : Lawful w) (genuine : p.Genuine w) (acted : Acted w p after q) : q.Genuine after := by
  have kept : p.Genuine after := genuine.extends acted.extends
  cases acted with
  | readSelf unheld read =>
    refine ⟨?_, kept.shards⟩
    rintro _ ⟨⟩
    exact ⟨read, (lawful.reshard read).1⟩
  | readShard read =>
    refine ⟨kept.held, fun c member => ?_⟩
    rcases List.mem_cons.mp member with rfl | old
    · exact read
    · exact kept.shards c old
  | moved free held stored move | pinned finalizers held stored cleaned =>
    refine ⟨?_, kept.shards⟩
    rintro _ ⟨⟩
    refine ⟨?_, (genuine.held _ held).2⟩
    rw [World.reshards_storeReshard]
    change (update w.reshards p.name _ p.name).Genuine _
    rw [update_self]
    exact History.genuine_push
  | madeNode _ _ _ _ _ known | unpinned _ _ _ known => cases known <;> exact ⟨kept.held, kept.shards⟩
  | @edited h old new version answer free held stored edit known =>
    rcases known with rfl | rfl
    · refine ⟨kept.held, fun c member => ?_⟩
      rcases List.mem_cons.mp member with rfl | older
      · dsimp only
        rw [edit.name, World.shards_storeShard, update_self]
        exact History.genuine_push
      · exact kept.shards c older
    · exact ⟨kept.held, kept.shards⟩
  | tried _ _ _ refused => rcases refused with rfl | rfl <;> exact ⟨kept.held, kept.shards⟩
  | _ => exact ⟨kept.held, kept.shards⟩

namespace Lawful

theorem empty : Lawful {} where
  reshard found := by cases found
  apart found := by cases found
  shard found := by cases found
  sameShard found := by cases found
  lasting found := by cases found
  claims found := by cases found
  journalled found := by cases found
  fenced found := by cases found
  sent found := by cases found
  thread found := by cases found

section

variable (lawful : Lawful w)
include lawful

theorem thread_kept (extends_ : Extends w w') {m : String} {t : Thread}
    (running : w.threads m = some t) : t.pass.name = m ∧
      protocol.Obeys t.prog t.pass (fun _ _ => True) (fun _ _ => True) ∧ t.pass.Genuine w' :=
  (lawful.thread running).imp_right (.imp_right (·.extends extends_))

theorem storeReshard {stored : Option Reshard}
    (again : ∀ r, stored = some r → ∃ i old, (w.reshards n).entry i = some old ∧ r.name = old.name ∧ r.uid = old.uid) :
    Lawful (w.storeReshard n stored) := by
  -- each entry, old or new, has the name and UID of an old one
  have before : ∀ {m i r}, ((w.storeReshard n stored).reshards m).entry i = some r →
      ∃ j old, (w.reshards m).entry j = some old ∧ r.name = old.name ∧ r.uid = old.uid := by
    intro m i r found
    rcases World.entry_storeReshard_cases found with old | ⟨rfl, -, new⟩
    · exact ⟨i, r, old, rfl, rfl⟩
    · exact again r new
  refine { lawful with
    reshard := fun found => ?_, apart := fun first second same => ?_, claims := fun found taken => ?_
    thread := lawful.thread_kept extends_storeReshard }
  · obtain ⟨j, old, entry, name, uid⟩ := before found
    rw [name, uid]
    exact lawful.reshard entry
  · obtain ⟨_, _, firstOld, -, uid⟩ := before first
    obtain ⟨_, _, secondOld, -, uid'⟩ := before second
    exact lawful.apart firstOld secondOld (uid.symm.trans (same.trans uid'))
  · obtain ⟨j, r, entry⟩ := lawful.claims found taken
    exact ⟨j, r, World.entry_storeReshard entry⟩

theorem storeShard {shard : Shard} (named : shard.name = n) (identified : shard.uid ≠ "")
    (same : ∀ i x, (w.shards n).entry i = some x → x.uid = shard.uid)
    (claim : shard.claim ≠ "" → ∃ j r, (w.reshards shard.claim).entry j = some r) :
    Lawful (w.storeShard n shard) := by
  refine { lawful with
    shard := fun found => ?_, sameShard := fun {m i j x y} first second => ?_, lasting := fun found => ?_
    claims := fun found taken => ?_, thread := lawful.thread_kept extends_storeShard }
  · rcases World.entry_storeShard_cases found with old | ⟨rfl, -, rfl⟩
    · exact lawful.shard old
    · exact ⟨named, identified⟩
  · rcases World.entry_storeShard_cases first with old | ⟨rfl, -, rfl⟩ <;>
      rcases World.entry_storeShard_cases second with old' | ⟨at_, -, rfl⟩
    · exact lawful.sameShard old old'
    · exact same i x (at_ ▸ old)
    · exact (same j y old').symm
    · rfl
  · rw [World.shard_storeShard]
    rcases World.entry_storeShard_cases found with old | ⟨rfl, -, -⟩
    · split
      · exact ⟨_, rfl⟩
      · exact lawful.lasting old
    · exact ⟨_, if_pos rfl⟩
  · rcases World.entry_storeShard_cases found with old | ⟨rfl, -, rfl⟩
    · exact lawful.claims old taken
    · exact claim taken

theorem besides (now : Nat) (outside : List String) (nodes : String → Option (Option String))
    (configs : History (List TableConfig)) (routings : String → History RoutingSpec)
    (compiles : String → Option RoutingThread) :
    Lawful { w with now, outside, nodes, configs, routings, compiles } :=
  { lawful with thread := lawful.thread_kept (by exact ⟨id, id⟩) }

theorem useUid (uid : String) : Lawful (w.useUid uid) :=
  { lawful with
    reshard := fun found => by
      obtain ⟨name, named, known, listed⟩ := lawful.reshard found
      exact ⟨name, named, List.mem_cons_of_mem uid known, listed⟩
    journalled := fun member => List.mem_cons_of_mem uid (lawful.journalled member)
    fenced := fun stands => List.mem_cons_of_mem uid (lawful.fenced stands)
    sent := fun member => List.mem_cons_of_mem uid (lawful.sent member)
    thread := lawful.thread_kept (by exact ⟨id, id⟩) }

theorem setDatabase {database : String} {db : Database}
    (journalled : ∀ id lsn, (id, lsn) ∈ db.journals → id.uid ∈ w.uids)
    (fenced : ∀ f, db.fence = some f → f.owner ∈ w.uids) : Lawful (w.setDatabase database db) := by
  refine { lawful with
    journalled := fun {d id lsn} member => ?_, fenced := fun {d f} stands => ?_
    thread := lawful.thread_kept (by exact ⟨fun found => found, fun found => found⟩) }
  · by_cases here : d = database
    · subst here
      simp only [World.setDatabase, update_self] at member
      exact journalled id lsn member
    · simp only [World.setDatabase, update_of_ne here] at member
      exact lawful.journalled member
  · by_cases here : d = database
    · subst here
      simp only [World.setDatabase, update_self] at stands
      exact fenced f stands
    · simp only [World.setDatabase, update_of_ne here] at stands
      exact lawful.fenced stands

theorem setLate {late : List Late} (sent : ∀ call ∈ late, call.uid ∈ w.uids) : Lawful { w with late } :=
  { lawful with sent := fun member => sent _ member, thread := lawful.thread_kept (by exact ⟨id, id⟩) }

theorem raiseFence {database owner : String} (known : owner ∈ w.uids) : Lawful (w.raiseFence database owner) := by
  refine lawful.setDatabase (fun _ _ member => lawful.journalled member) ?_
  rintro _ ⟨⟩
  exact known

theorem liftFence {database : String} : Lawful (w.liftFence database) :=
  lawful.setDatabase (fun _ _ member => lawful.journalled member) nofun

theorem applyJournal {request : JournalRequest} (known : request.id.uid ∈ w.uids) : Lawful (w.applyJournal request) := by
  refine lawful.setDatabase (fun _ _ member => ?_) fun _ stands => lawful.fenced stands
  rcases List.mem_cons.mp member with new | old
  · cases new
    exact known
  · exact lawful.journalled old

theorem carryOut {call : Late} (known : call.uid ∈ w.uids) : Lawful (w.carryOut call) := by
  cases call with
  | journal request => exact lawful.applyJournal known
  | fence owner request =>
    simp only [World.carryOut, World.applyFence]
    split
    · exact lawful.liftFence
    · exact lawful.raiseFence known

theorem setThread {thread : Option Thread}
    (own : ∀ t, thread = some t → t.pass.name = n ∧
      protocol.Obeys t.prog t.pass (fun _ _ => True) (fun _ _ => True) ∧ t.pass.Genuine w) :
    Lawful (w.setThread n thread) := by
  refine { lawful with thread := fun {m t} running => ?_ }
  by_cases here : m = n
  · subst here
    simp only [World.setThread, update_self] at running
    obtain ⟨name, obeys, genuine⟩ := own t running
    exact ⟨name, obeys, genuine.held, genuine.shards⟩
  · simp only [World.setThread, update_of_ne here] at running
    obtain ⟨name, obeys, genuine⟩ := lawful.thread running
    exact ⟨name, obeys, genuine.held, genuine.shards⟩

end

theorem freshUid_not_mem {uid : String} (fresh : w.freshUid uid = true) : uid ≠ "" ∧ uid ∉ w.uids := by
  simp only [World.freshUid, Bool.and_eq_true, bne_iff_ne, Bool.not_eq_true', List.contains_eq_mem,
    decide_eq_false_iff_not] at fresh
  exact fresh.1

theorem held_known (lawful : Lawful w) (genuine : p.Genuine w) {h : Copy Reshard} (held : p.held = some h) :
    h.obj.uid ∈ w.uids :=
  (lawful.reshard (genuine.held h held).1).2.2.1

theorem acted (lawful : Lawful w) (genuine : p.Genuine w) (acted : Acted w p after q) : Lawful after := by
  -- a reshard that the pass holds and stores anew
  have rewrites : ∀ {h : Copy Reshard} {stored : Option Reshard}, p.held = some h →
      (∀ r, stored = some r → r.name = h.obj.name ∧ r.uid = h.obj.uid) →
      Lawful (w.storeReshard p.name stored) := fun held same =>
    lawful.storeReshard fun r new => ⟨_, _, (genuine.held _ held).1, same r new⟩
  cases acted with
  | moved _ held | movedUnknown _ held | pinned _ held | pinnedUnknown _ held =>
    exact rewrites held (by rintro _ ⟨⟩; exact ⟨rfl, rfl⟩)
  | unpinned held => exact rewrites held nofun
  | edited _ held stored edit =>
    obtain ⟨i, entry⟩ := World.entry_of_shard stored
    have claimant := lawful.claims entry
    refine lawful.storeShard edit.name ?_ (fun j x found => ?_) ?_
    · rw [edit.uid]
      exact (lawful.shard entry).2
    · rw [edit.uid]
      exact lawful.sameShard found entry
    · cases edit with
      | claim => exact fun _ => ⟨_, _, (genuine.held _ held).1⟩
      | release => exact fun taken => absurd rfl taken
      | hide | serve => exact claimant
  | made uid absent fresh permitted =>
    obtain ⟨identified, -⟩ := freshUid_not_mem fresh
    refine (lawful.useUid uid).storeShard ?_ ?_ (fun i x found => ?_) fun taken => absurd permitted.2.1 taken
    · rfl
    · exact identified
    · have bound : i < _ := History.lt_of_entry (h := w.shards _) found
      omega
  | fenced _ held | fencedUnknown _ _ held => exact lawful.raiseFence (lawful.held_known genuine held)
  | lifted | liftedUnknown => exact lawful.liftFence
  | emitted permitted | emittedUnknown rejected permitted =>
    obtain ⟨-, h, held, -, -, -, -, id⟩ := permitted
    exact lawful.applyJournal (id ▸ lawful.held_known genuine held)
  | liftTried held own | deferred _ held own =>
    refine lawful.setLate (List.forall_mem_cons.mpr ⟨?_, fun _ member => lawful.sent member⟩)
    exact own ▸ lawful.held_known genuine held
  | madeNode => exact lawful.besides _ _ _ _ _ _
  | _ => exact lawful

theorem born {name uid : String} (lawful : Lawful w) (spec : ReshardSpec) (named : name ≠ "")
    (fresh : w.freshUid uid = true) :
    Lawful (((w.useUid uid).useName name).storeReshard name (some { name, uid, spec })) := by
  obtain ⟨-, unused⟩ := freshUid_not_mem fresh
  refine { lawful.useUid uid with
    reshard := fun found => ?_, apart := fun {m k i j r s} first second same => ?_, claims := fun found taken => ?_
    thread := lawful.thread_kept (by exact ⟨World.entry_storeReshard, id⟩) }
  · rcases World.entry_storeReshard_cases found with old | ⟨rfl, -, new⟩
    · obtain ⟨name', named', known, listed⟩ := lawful.reshard old
      exact ⟨name', named', List.mem_cons_of_mem _ known, List.mem_cons_of_mem _ listed⟩
    · cases new
      exact ⟨rfl, named, List.mem_cons_self, List.mem_cons_self⟩
  · rcases World.entry_storeReshard_cases first with old | ⟨rfl, -, new⟩ <;>
      rcases World.entry_storeReshard_cases second with old' | ⟨here, -, new'⟩
    · exact lawful.apart old old' same
    · cases new'
      exact absurd ((show r.uid = uid from same) ▸ (lawful.reshard old).2.2.1) unused
    · cases new
      exact absurd ((show uid = s.uid from same) ▸ (lawful.reshard old').2.2.1) unused
    · exact here.symm
  · obtain ⟨j, r, entry⟩ := lawful.claims found taken
    exact ⟨j, r, World.entry_storeReshard entry⟩

theorem happens (lawful : Lawful w) (happens : Happens w c w') : Lawful w' := by
  cases happens with
  | started =>
    refine lawful.setThread ?_
    rintro _ ⟨⟩
    exact ⟨rfl, reconcile_obeys _, .start⟩
  | stopped => exact lawful.setThread fun _ new => absurd new.symm (Option.some_ne_none _)
  | acted running _ _ _ acted obeys =>
    obtain ⟨name, -, genuine⟩ := lawful.thread running
    refine (lawful.acted genuine acted).setThread ?_
    rintro _ ⟨⟩
    exact ⟨acted.name.trans name, obeys, acted.genuine lawful genuine⟩
  | retagged _ stored retags =>
    refine (lawful.storeReshard fun r new => ⟨_, _, stored, ?_⟩).besides _ _ _ _ _ _
    cases retags.retagged with
    | gone => cases new
    | kept => cases new; exact ⟨rfl, rfl⟩
  | born spec named absent fresh =>
    exact lawful.born spec named fresh
  | @appeared shard absent fresh =>
    obtain ⟨identified, -⟩ := freshUid_not_mem fresh
    have noted := lawful.besides w.now (w.noteOwner shard.controller).outside w.nodes w.configs w.routings w.compiles
    refine (noted.useUid shard.uid).storeShard ?_ ?_ (fun i x found => ?_) fun taken => absurd rfl taken
    · rfl
    · exact identified
    · have bound : i < (w.shards shard.name).size := History.lt_of_entry found
      omega
  | edited stored =>
    have entry := (World.entry_of_shard stored).choose_spec
    have claimant := lawful.claims entry
    refine lawful.storeShard ?_ ?_ (fun i x found => ?_) ?_
    · exact (lawful.shard entry).1
    · exact (lawful.shard entry).2
    · exact (lawful.sameShard found entry).trans rfl
    · exact claimant
  | walExtended database =>
    exact lawful.setDatabase (fun _ _ member => lawful.journalled member) fun _ stands => lawful.fenced stands
  | landed databases sent carried =>
    have kept := lawful.carryOut (lawful.sent (List.mem_of_getElem? sent))
    rw [carried] at kept
    exact kept.setLate fun _ member => lawful.sent (List.mem_of_mem_eraseIdx member)
  | routed | ticked | nodeMade | configured => exact lawful.besides _ _ _ _ _ _

end Lawful

def ReachedUnder (allowed : World → Choice → Bool) : World → Prop :=
  Runs.Under step allowed {}

def Reached : World → Prop :=
  ReachedUnder fun _ _ => true

def runUnder : (World → Choice → Bool) → World → List Choice → Option World :=
  Runs.exec step

variable {allowed : World → Choice → Bool}

theorem ReachedUnder.reached (reached : ReachedUnder allowed w) : Reached w :=
  reached.mono fun _ _ _ => rfl

theorem Reached.lawful (reached : Reached w) : Lawful w :=
  reached.invariant .empty fun _ _ _ lawful _ taken => lawful.happens (step_happens lawful taken)

/-- What the empty state has and every allowed step keeps, every state has. -/
theorem ReachedUnder.invariant {inv : World → Prop} (reached : ReachedUnder allowed w) (atStart : inv {})
    (kept : ∀ w c w', Reached w → inv w → allowed w c = true → step w c = some w' → inv w') : inv w := by
  induction reached with
  | start => exact atStart
  | next before fit taken ih => exact kept _ _ _ (ReachedUnder.reached before) ih fit taken

theorem ReachedUnder.of_run {property : World → Bool} (ends : (runUnder allowed {} choices).any property = true) :
    ∃ w, ReachedUnder allowed w ∧ property w = true :=
  Runs.Under.exists_of_exec ends

theorem Reached.of_run {property : World → Bool} (ends : (run {} choices).any property = true) :
    ∃ w, Reached w ∧ property w = true :=
  Runs.Under.exists_of_exec ends

end PgShard.Operator
