import PgShard.Operator.Fencing

/-! Runs in which the cutover protocol is safe. -/

namespace PgShard.Operator

open Versioned Effects Effects.Monitor

variable {t : Thread} {o : Op} {p : Pass} {after : World}

variable {w w' : World} {n s : String} {c : Choice}

/-! ## The conditions, on a state and what happens next -/

def World.pending (w : World) (n : String) : Option Op :=
  match w.threads n with
  | some ⟨_, .call o _⟩ => some o
  | _ => none

/-- A reconcile's read of its reshard sees the latest version. -/
def selfFresh (w : World) : Choice → Bool
  | .advance n (.version i) =>
    match w.pending n with
    | some (.getReshard name) => decide ((w.reshards name).read i = (w.reshards name).latest)
    | _ => true
  | _ => true

/-- A new reshard has a name that none has had. -/
def nameNew (w : World) : Choice → Bool
  | .createReshard name _ _ => !w.names.contains name
  | _ => true

/-- A reconcile that has dropped the claim of an open reshard ends only once the
reshard is being deleted or has failed. -/
def dropSettled (w : World) : Choice → Bool
  | .stop n => (w.threads n).all fun t => !t.pass.dropped || (w.reshard n).all fun r =>
      r.deleting || r.status.phase == .failed
  | _ => true

/-- A reconcile that has lifted the fence ends only once the reshard is being
deleted, has left the cutover or is past its deadline. -/
def liftSettled (w : World) : Choice → Bool
  | .stop n => (w.threads n).all fun t => !t.pass.unfenced || (w.reshard n).all fun r =>
      r.deleting || r.status.phase != .cuttingOver || r.status.cutoverGateDeadline.any (· < w.now)
  | _ => true

def World.switched (w : World) (s : String) : Bool :=
  w.names.any fun n => (w.reshards n).entries.any fun stored => stored.any fun r =>
    r.status.switchCommitted && r.spec.sourceShard == s

/-- No reconcile puts the source of a committed switch back into service. -/
def hiddenKept (w : World) : Choice → Bool
  | .advance n _ =>
    match w.pending n with
    | some (.updateShard x) =>
      !(x.obj.serving && w.switched x.obj.name && (w.shard x.obj.name).any (!·.serving))
    | _ => true
  | _ => true

def orderly (w : World) (c : Choice) : Bool :=
  selfFresh w c && nameNew w c && dropSettled w c && liftSettled w c && hiddenKept w c && undelayed c

/-! ## What they come to -/

theorem Happens.threads (happens : Happens w c w') (n : String) :
    w'.threads n = w.threads n ∨ w.threads n = none ∨ c = .stop n ∧ w'.threads n = none ∨
      ∃ t reply o, ∃ (k : Ans o → Ctl Unit) (after : World) (answer : Ans o), c = .advance n reply ∧
        w.threads n = some t ∧ t.prog = .call o k ∧ exec w t.pass o reply = some (after, answer) ∧ Permits t.pass o ∧
        w' = after.setThread n (some ⟨t.pass.next o answer, k answer⟩) := by
  cases happens with
  | @started m idle =>
    by_cases here : n = m
    · exact .inr (.inl (here ▸ idle))
    · exact .inl (World.threads_setThread_of_ne here)
  | stopped m =>
    by_cases here : n = m
    · subst here
      exact .inr (.inr (.inl ⟨rfl, World.threads_setThread_self ..⟩))
    · exact .inl (World.threads_setThread_of_ne here)
  | @acted m _ _ _ _ _ _ running calls done permitted acted =>
    by_cases here : n = m
    · subst here
      exact .inr (.inr (.inr ⟨_, _, _, _, _, _, rfl, running, calls, done, permitted, rfl⟩))
    · exact .inl ((World.threads_setThread_of_ne here).trans (congrFun acted.threads n))
  | _ => exact .inl rfl

theorem Happens.thread {t' : Thread} (happens : Happens w c w') (running : w.threads n = some t)
    (running' : w'.threads n = some t') : t' = t ∨ ∃ reply o, ∃ (k : Ans o → Ctl Unit) (after : World) (answer : Ans o),
      c = .advance n reply ∧ t.prog = .call o k ∧ exec w t.pass o reply = some (after, answer) ∧ Permits t.pass o ∧
        t' = ⟨t.pass.next o answer, k answer⟩ ∧ w' = after.setThread n (some t') := by
  rcases happens.threads n with same | idle | ⟨-, ended⟩ | ⟨_, _, _, _, _, _, same, here, calls, done, permitted, rfl⟩
  · exact .inl (Option.some.inj ((running'.symm.trans same).trans running))
  · cases idle.symm.trans running
  · cases ended.symm.trans running'
  · cases here.symm.trans running
    cases running'.symm.trans (World.threads_setThread_self ..)
    exact .inr ⟨_, _, _, _, _, same, calls, done, permitted, rfl, rfl⟩

theorem Happens.stops (happens : Happens w c w') (running : w.threads n = some t)
    (ended : w'.threads n = none) : c = .stop n := by
  rcases happens.threads n with same | idle | ⟨stops, -⟩ | ⟨_, _, _, _, _, _, -, -, -, -, -, rfl⟩
  · cases (ended.symm.trans same).trans running
  · cases idle.symm.trans running
  · exact stops
  · cases ended.symm.trans (World.threads_setThread_self ..)

theorem World.pending_call {k : Ans o → Ctl Unit} (running : w.threads n = some t)
    (calls : t.prog = .call o k) : w.pending n = some o := by
  obtain ⟨pass, prog⟩ := t
  change prog = _ at calls
  subst calls
  simp [World.pending, running]

@[simp] theorem Pass.rejects_held (p : Pass) (e : RpcError) (codes : List RpcCode) : (p.rejects e codes).held = p.held := by
  rw [Pass.rejects_eq]

theorem Pass.next_unheld {answer : Ans o} (unheld : p.held = none) (permitted : Permits p o)
    (other : ∀ name, o ≠ .getReshard name) : (p.next o answer).held = none := by
  cases o with
  | getReshard name => exact absurd rfl (other name)
  | updateStatus r | updateReshard r =>
    obtain ⟨-, h, _, held, -⟩ := permitted
    cases unheld.symm.trans held
  | updateShard x | fenceWrites request | emitJournal request =>
    obtain ⟨-, h, held, -⟩ := permitted
    cases unheld.symm.trans held
  | getCluster name | getNodeController name | prepareSource request | startWorkflow request =>
    cases answer <;> simp [Pass.next, unheld]
  | _ => first | exact unheld | (cases answer <;> exact unheld)

theorem Happens.freshSelf (happens : Happens w c w') (lawful : Lawful w) (fresh : selfFresh w c = true) :
    FreshSelf w w' := by
  intro n t t' h running running' unheld held
  rcases happens.thread running running' with rfl | ⟨_, o, _, _, answer, rfl, calls, done, permitted, rfl, -⟩
  · cases unheld.symm.trans held
  by_cases reads : ∃ name, o = .getReshard name
  · obtain ⟨name, rfl⟩ := reads
    obtain ⟨rfl, -⟩ := permitted
    obtain ⟨-, seen⟩ := answerCached_cases done
    cases answer with
    | found g =>
      cases held
      obtain ⟨i, rfl, read⟩ := seen h rfl
      simp only [selfFresh, World.pending_call running calls, decide_eq_true_eq] at fresh
      exact (lawful.thread running).1 ▸ History.latest_current (fresh.symm.trans read)
    | notFound | failed => cases unheld.symm.trans held
  · have still : (t.pass.next o answer).held = none :=
      Pass.next_unheld unheld permitted fun name same => reads ⟨name, same⟩
    cases still.symm.trans held

theorem Happens.dropSettled (happens : Happens w c w') (settled : dropSettled w c = true) :
    DropSettled (w.scene n s) (w'.scene n s) := by
  intro p r running ended dropped stored
  obtain ⟨t, thread, rfl⟩ := Option.map_eq_some_iff.mp running
  obtain rfl := happens.stops thread (Option.map_eq_none_iff.mp ended)
  change w.reshard n = some r at stored
  simpa [PgShard.Operator.dropSettled, thread, dropped, stored] using settled

theorem Happens.liftSettled (happens : Happens w c w') (settled : liftSettled w c = true) :
    LiftSettled (w.scene n s) (w'.scene n s) := by
  intro p r running ended unfenced stored
  obtain ⟨t, thread, rfl⟩ := Option.map_eq_some_iff.mp running
  obtain rfl := happens.stops thread (Option.map_eq_none_iff.mp ended)
  change w.reshard n = some r at stored
  simp only [PgShard.Operator.liftSettled, thread, Option.all_some, unfenced, stored, Bool.not_true, Bool.false_or,
    Bool.or_eq_true, bne_iff_ne] at settled
  rcases settled with (deleting | left) | late
  · exact .inl deleting
  · exact .inr (.inl left)
  · obtain ⟨d, deadline, past⟩ := exists_of_any late
    exact .inr (.inr ⟨d, deadline, of_decide_eq_true past⟩)

theorem Acted.reshard_none {q : Pass} (acted : Acted w p after q) (absent : w.reshard n = none) :
    after.reshard n = none := by
  have kept : ∀ {name : String} {r : Reshard} {new : Option Reshard}, w.reshard name = some r →
      (w.storeReshard name new).reshard n = none := by
    intro name r new stored
    rw [World.reshard_storeReshard, if_neg]
    · exact absent
    · rintro rfl
      cases absent.symm.trans stored
  cases acted with
  | moved _ _ stored | movedUnknown _ _ stored | pinned _ _ stored | unpinned _ stored
  | pinnedUnknown _ _ stored => exact kept stored
  | _ => exact absent

theorem Happens.newNames (happens : Happens w c w') (lawful : Lawful w) (new : nameNew w c = true) : NewNames w w' := by
  intro n absent present i
  cases happens with
  | acted _ _ _ _ acted => exact absurd (acted.reshard_none absent) present
  | @retagged m _ _ new' _ stored =>
    have other : n ≠ m := by
      rintro rfl
      cases absent.symm.trans stored
    have kept : (w.storeReshard m new').reshard n = none := by rw [World.reshard_storeReshard, if_neg other, absent]
    exact absurd kept present
  | @born name uid spec =>
    rw [World.reshard_storeReshard] at present
    split at present
    · rename_i here
      subst here
      cases found : (w.reshards n).entry i with
      | none => rfl
      | some r => simp [nameNew, (lawful.reshard found).2.2.2] at new
    · exact absurd absent present
  | _ => exact absurd absent present

theorem answerCreateShard_cases {x : Shard} {reply : Reply} {answer : Created}
    (done : answerCreateShard w x reply = some (after, answer)) :
    after = w ∨ (w.shards x.name).size = 0 ∧ ∃ uid, after = (w.useUid uid).storeShard x.name { x with uid } := by
  unfold answerCreateShard at done
  split at done
  · split at done
    · cases done
      exact .inl rfl
    · split at done <;> cases done
      exact .inr ⟨not_not.mp ‹_›, _, rfl⟩
  · cases done
    exact .inl rfl
  · cases done

/-- What a call of a reconcile may have changed. -/
inductive Changes (w : World) : Op → World → Prop
  | beside {o : Op} (nodes : String → Option (Option String)) (databases : String → Database) (late : List Late) :
      Changes w o { w with nodes, databases, late }
  | status {r : Copy Reshard} {after : World} (written : w.putStatus r = some after) : Changes w (.updateStatus r) after
  | reshard {r : Copy Reshard} {after : World} (written : w.putReshard r = some after) :
      Changes w (.updateReshard r) after
  | shard {x : Copy Shard} {after : World} (written : w.putShard x = some after) : Changes w (.updateShard x) after
  | made {x : Shard} (uid : String) (absent : (w.shards x.name).size = 0) :
      Changes w (.createShard x) ((w.useUid uid).storeShard x.name { x with uid })

theorem exec_changes {reply : Reply} {answer : Ans o}
    (done : exec w p o reply = some (after, answer)) : Changes w o after := by
  cases o with
  | updateStatus r =>
    rcases answerWrite_cases done with ⟨written, -⟩ | ⟨rfl, -⟩
    · exact .status written
    · exact .beside ..
  | updateReshard r =>
    rcases answerWrite_cases done with ⟨written, -⟩ | ⟨rfl, -⟩
    · exact .reshard written
    · exact .beside ..
  | updateShard x =>
    rcases answerWrite_cases done with ⟨written, -⟩ | ⟨rfl, -⟩
    · exact .shard written
    · exact .beside ..
  | createShard x =>
    rcases answerCreateShard_cases done with rfl | ⟨absent, uid, rfl⟩
    · exact .beside ..
    · exact .made uid absent
  | createNode node =>
    replace done : answerCreateNode w node reply = some (after, answer) := done
    unfold answerCreateNode at done
    split at done
    · split at done <;> cases done <;> exact .beside ..
    · split at done <;> cases done <;> exact .beside ..
    · cases done
  | fenceWrites request =>
    rcases answerRpc_cases done with rfl | ⟨rfl, -⟩
    · unfold World.applyFence
      split <;> exact .beside ..
    · exact .beside ..
  | emitJournal request =>
    replace done : answerJournal w request reply = some (after, answer) := done
    unfold answerJournal at done
    split at done
    · cases done
      exact .beside ..
    · split at done <;> cases done
      exact .beside ..
    · cases done
      exact .beside ..
    · cases done
      split <;> exact .beside ..
    · cases done
  | now =>
    cases reply with
    | done =>
      cases done
      exact .beside ..
    | _ => cases done
  | ensureConfigMap | dial => exact answerFlag_cases done ▸ .beside ..
  | prepareSource | startWorkflow | stopWorkflow => exact answerRpc_same done ▸ .beside ..
  | watchWorkflows | getStatus => cases reply <;> cases done <;> exact .beside ..
  | _ => exact (answerGet_cases done).1 ▸ .beside ..

theorem World.switched_of_scene (lawful : Lawful w) (sourced : Sourced n s w) (committed : (w.scene n s).committed) :
    w.switched s = true := by
  obtain ⟨i, r, found, committed⟩ := committed
  have listed := (lawful.reshard found).2.2.2
  have member : some r ∈ (w.reshards n).entries := by
    exact List.mem_of_getElem? (Option.join_eq_some_iff.mp found)
  simp only [World.switched, List.any_eq_true]
  exact ⟨n, listed, some r, member, by simp [committed, sourced i r found]⟩

theorem Happens.noReserve (happens : Happens w c w') (lawful : Lawful w) (sourced : Sourced n s w)
    (kept : hiddenKept w c = true) : NoReserve (w.scene n s) (w'.scene n s) := by
  intro x y before after out back committed
  have switched := World.switched_of_scene lawful sourced committed
  change w.shard s = some x at before
  change w'.shard s = some y at after
  have unraised : w.shard s = some y → False := fun same => by
    cases before.symm.trans same
    cases out.symm.trans back
  cases happens with
  | @acted m reply t o k after' answer running calls done =>
    change after'.shard s = some y at after
    cases exec_changes done with
    | @shard z _ written =>
      obtain ⟨-, rfl⟩ := putShard_cases written
      rw [World.shard_storeShard] at after
      split at after
      · rename_i here
        cases after
        simp [hiddenKept, World.pending_call running calls, ← here, back, switched, before, out] at kept
      · exact unraised after
    | made uid absent =>
      rw [World.shard_storeShard] at after
      split at after
      · rename_i here
        cases (World.shard_none (here ▸ absent)).symm.trans before
      · exact unraised after
    | status written =>
      obtain ⟨_, _, _, rfl⟩ := putStatus_cases written
      exact unraised after
    | reshard written =>
      obtain ⟨_, _, _, rfl⟩ := putReshard_cases written
      exact unraised after
    | _ => exact unraised after
  | @appeared z absent =>
    rw [World.shard_storeShard] at after
    split at after
    · rename_i here
      cases (World.shard_none (here ▸ absent)).symm.trans before
    · exact unraised after
  | @edited old z stored =>
    rw [World.shard_storeShard] at after
    split at after
    · rename_i here
      cases after
      cases stored.symm.trans (here ▸ before)
      exact absurd (Bool.and_eq_true_iff.mp back).1 (by simp [out])
    · exact unraised after
  | _ => exact unraised after

/-! ## Every scene of an orderly run is safe -/

structure Safe (n s : String) (v : Scene) : Prop where
  sound : Sound n v
  rooted : Rooted n s v
  holding : Holding n v
  exclusive : Exclusive n v
  fencing : Fencing v

theorem Safe.step {v v' : Scene} (safe : Safe n s v) (named : n ≠ "") (drop : DropSettled v v') (lift : LiftSettled v v')
    (hidden : NoReserve v v') (step : Scene.Step n s v v') : Safe n s v' where
  sound := safe.sound.step step
  rooted := safe.rooted.step safe.sound named step
  holding := safe.holding.step safe.sound safe.rooted named drop step
  exclusive := safe.exclusive.step safe.sound safe.rooted safe.holding named hidden step
  fencing := safe.fencing.step safe.sound safe.rooted safe.holding safe.exclusive drop lift step

theorem Scene.knows_empty {r : Reshard} (known : (World.scene {} n s).Knows r) : False := by
  rcases known with stored | ⟨_, _, running, -⟩
  · cases stored
  · cases running

theorem Safe.start (n s : String) : Safe n s (World.scene {} n s) where
  sound :=
    { named := fun running => by cases running
      same := fun running => by cases running
      committed := fun known => (Scene.knows_empty known).elim }
  rooted :=
    { identified := fun source => by cases source
      carried := fun source => by cases source
      copies := fun running => by cases running
      pinned := fun known => (Scene.knows_empty known).elim
      validated := fun known => (Scene.knows_empty known).elim
      claimant := fun known => (Scene.knows_empty known).elim
      cutting := fun known => (Scene.knows_empty known).elim
      switched := fun ⟨_, _, found, _⟩ => by cases found }
  holding := fun _ stored => by cases stored
  exclusive := fun ⟨_, _, found, _⟩ => by cases found
  fencing :=
    { behind := fun stands => by cases stands
      recorded := fun stored => by cases stored
      attempts := fun stored => by cases stored
      barrier := fun running => by cases running
      raised := fun running => by cases running
      guarded := fun stored => by cases stored
      frozen := fun stored => by cases stored }

theorem Happens.extends (happens : Happens w c w') : Extends w w' := by
  cases happens with
  | acted _ _ _ _ acted => exact ⟨acted.extends.reshards, acted.extends.shards⟩
  | retagged | born => exact ⟨fun found => World.entry_storeReshard found, fun found => found⟩
  | appeared | edited => exact ⟨fun found => found, fun found => World.entry_storeShard found⟩
  | _ => exact ⟨fun found => found, fun found => found⟩

theorem Sourced.before (sourced : Sourced n s w') (grown : Extends w w') : Sourced n s w :=
  fun i r found => sourced i r (grown.reshards found)

theorem orderly_scene (reached : Reached w) (fit : orderly w c = true) (taken : step w c = some w') (named : n ≠ "")
    (sourced : Sourced n s w) : Scene.Step n s (w.scene n s) (w'.scene n s) ∧
      DropSettled (w.scene n s) (w'.scene n s) ∧ LiftSettled (w.scene n s) (w'.scene n s) ∧
      NoReserve (w.scene n s) (w'.scene n s) := by
  simp only [orderly, Bool.and_eq_true] at fit
  obtain ⟨⟨⟨⟨⟨fresh, new⟩, drop⟩, lift⟩, hidden⟩, prompt⟩ := fit
  have lawful := reached.lawful
  have happens := step_happens lawful taken
  exact ⟨happens.scene lawful reached.authorised prompt (happens.freshSelf lawful fresh) (happens.newNames lawful new) named
    sourced, happens.dropSettled drop, happens.liftSettled lift, happens.noReserve lawful sourced hidden⟩

def AllSafe (w : World) : Prop :=
  ∀ n s, n ≠ "" → Sourced n s w → Safe n s (w.scene n s)

theorem ReachedUnder.safe (reached : ReachedUnder orderly w) : AllSafe w := by
  refine reached.invariant (fun n s _ _ => Safe.start n s) ?_
  intro w c w' reached safe fit taken n s named sourced
  have before := sourced.before (step_happens reached.lawful taken).extends
  obtain ⟨step, drop, lift, hidden⟩ := orderly_scene reached fit taken named before
  exact (safe n s named before).step named drop lift hidden step

end PgShard.Operator
