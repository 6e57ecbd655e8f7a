import PgShard.Operator.World
import PgShard.Operator.CutoverConduct

/-! What a step of the whole system can do. The handlers' code enters only
through the protocol they keep to. -/

namespace PgShard.Operator

open Versioned Effects Effects.Monitor

variable {answer : Wrote} {r : Copy Reshard} {α : Type}

variable {w w' after : World} {p q : Pass} {n : String}

/-- A change of a stored reshard that leaves its identity, spec and status alone. -/
inductive Retagged (r : Reshard) : Option Reshard → Prop
  | gone : Retagged r none
  | kept (finalizers : List String) (deleting : Bool) (stays : r.deleting = true → deleting = true) :
      Retagged r (some { r with finalizers, deleting })

/-- What a pass does to its surroundings, and what it knows then. A write that
failed may have been stored all the same. -/
inductive Acted (w : World) (p : Pass) : World → Pass → Prop
  | heard (cluster : Option Cluster) (rejected : Bool)
      (named : cluster = p.cluster ∨ ∃ h c, p.held = some h ∧ c.name = h.obj.spec.clusterRef ∧ cluster = some c) :
      Acted w p w { p with cluster, rejected }
  | readSelf {h : Copy Reshard} (unheld : p.held = none) (genuine : (w.reshards p.name).Genuine h) :
      Acted w p w { p with held := some h }
  | readLive {r : Reshard} (stored : w.reshard p.name = some r) :
      Acted w p w { p with liveOpen := p.sameOpen r }
  | missed (name : String) : Acted w p w { p with unread := name :: p.unread }
  | readConfigs {h : Copy Reshard} {configs : List TableConfig} {i : Nat} (held : p.held = some h)
      (stored : (w.configs.entry i).getD [] = configs) :
      Acted w p w { p with configs := some configs }
  | readRouting {h : Copy Reshard} {routing : RoutingSpec} {i : Nat} (held : p.held = some h)
      (stored : (w.routings h.obj.spec.clusterRef).entry i = some routing) :
      Acted w p w { p with routing := some routing, waited := none }
  | knewNode {h : Copy Reshard} {name : String} (held : p.held = some h)
      (stored : w.nodes name = some (some h.obj.uid)) : Acted w p w { p with nodes := name :: p.nodes }
  | madeNode {h : Copy Reshard} {node : Node} (held : p.held = some h) (own : node.controller = some h.obj.uid)
      (phase : h.obj.status.phase = .provisioningTargets) (named : TargetName h.obj node.name)
      (absent : w.nodes node.name = none) (known : Bool) :
      Acted w p (w.storeNode node.name node.controller)
        (if known then { p with nodes := node.name :: p.nodes } else p)
  | readShard {c : Copy Shard} (genuine : (w.shards c.obj.name).Genuine c) :
      Acted w p w { p with shards := c :: p.shards }
  | readClaim {h : Copy Reshard} {x : Shard} (held : p.held = some h)
      (stored : w.shard h.obj.spec.sourceShard = some x) :
      Acted w p w { p with owns := some (x.claim == p.name) }
  | readClock : Acted w p w { p with clock := some w.now, waited := some w.now }
  | gaveUp : Acted w p w { p with stuck := true }
  | moved {h : Copy Reshard} {status : ReshardStatus} (free : p.stuck = false) (held : p.held = some h)
      (stored : w.reshard p.name = some h.obj) (move : Move p h.obj status)
      (latest : (w.reshards p.name).accepts h.version = true) :
      Acted w p (w.storeReshard p.name (some { h.obj with status }))
        (p.wroteStatus ⟨h.version, { h.obj with status }⟩ (.stored (w.reshards p.name).size))
  | movedUnknown {h : Copy Reshard} {status : ReshardStatus} (free : p.stuck = false) (held : p.held = some h)
      (stored : w.reshard p.name = some h.obj) (move : Move p h.obj status)
      (latest : (w.reshards p.name).accepts h.version = true) :
      Acted w p (w.storeReshard p.name (some { h.obj with status })) { p with stuck := true }
  | pinned {h : Copy Reshard} (finalizers : List String) (held : p.held = some h)
      (stored : w.reshard p.name = some h.obj)
      (cleaned : cutoverClaimFinalizer ∈ h.obj.finalizers → cutoverClaimFinalizer ∉ finalizers → Cleaned p h.obj)
      (latest : (w.reshards p.name).accepts h.version = true) :
      Acted w p (w.storeReshard p.name (some { h.obj with finalizers }))
        { p with held := some ⟨(w.reshards p.name).size, { h.obj with finalizers }⟩ }
  | unpinned {h : Copy Reshard} (held : p.held = some h) (stored : w.reshard p.name = some h.obj)
      (cleaned : cutoverClaimFinalizer ∈ h.obj.finalizers → Cleaned p h.obj) (known : Bool)
      (dying : h.obj.deleting = true) : Acted w p (w.storeReshard p.name none) (if known then { p with stuck := true } else p)
  | pinnedUnknown {h : Copy Reshard} (finalizers : List String) (held : p.held = some h)
      (stored : w.reshard p.name = some h.obj)
      (cleaned : cutoverClaimFinalizer ∈ h.obj.finalizers → cutoverClaimFinalizer ∉ finalizers → Cleaned p h.obj) :
      Acted w p (w.storeReshard p.name (some { h.obj with finalizers })) p
  | edited {h : Copy Reshard} {old new : Shard} {version : Nat} {answer : Wrote} (free : p.stuck = false)
      (held : p.held = some h) (stored : w.shard old.name = some old) (edit : ShardEdit p h.obj old new)
      (known : answer = .stored (w.shards old.name).size ∨ answer = .failed) :
      Acted w p (w.storeShard old.name new) (p.wroteShard ⟨version, new⟩ answer)
  | tried {h : Copy Reshard} {old new : Shard} {version : Nat} {answer : Wrote} (free : p.stuck = false)
      (held : p.held = some h) (edit : ShardEdit p h.obj old new)
      (refused : answer = .conflict ∨ answer = .failed) :
      Acted w p w (p.wroteShard ⟨version, new⟩ answer)
  | made {s : Shard} (uid : String) (absent : (w.shards s.name).size = 0) (fresh : w.freshUid uid = true)
      (permitted : Permits p (.createShard s)) : Acted w p ((w.useUid uid).storeShard s.name { s with uid }) p
  | fenced {h : Copy Reshard} {database : String} (free : p.stuck = false) (held : p.held = some h)
      (kept : p.unfenced = false ∧ p.dropped = false) (freezing : Freezing h.obj database) :
      Acted w p (w.raiseFence database h.obj.uid) { p with fenced := true }
  | fencedUnknown {h : Copy Reshard} {database : String} (rejected : Bool) (free : p.stuck = false)
      (held : p.held = some h) (kept : p.unfenced = false ∧ p.dropped = false)
      (freezing : Freezing h.obj database) : Acted w p (w.raiseFence database h.obj.uid) { p with rejected }
  | lifted {h : Copy Reshard} (free : p.stuck = false) (held : p.held = some h)
      (authorised : p.owns = some true ∧ p.liveOpen = true) (uncommitted : h.obj.status.switchCommitted = false) :
      Acted w p (w.liftFence h.obj.spec.sourceShard) { p with unfenced := true, lifted := true }
  | liftedUnknown {h : Copy Reshard} (free : p.stuck = false) (held : p.held = some h)
      (authorised : p.owns = some true ∧ p.liveOpen = true) (uncommitted : h.obj.status.switchCommitted = false) :
      Acted w p (w.liftFence h.obj.spec.sourceShard) { p with unfenced := true }
  | liftTried {h : Copy Reshard} {call : Late} (held : p.held = some h) (own : call.uid = h.obj.uid) :
      Acted w p (w.defer call) { p with unfenced := true }
  | deferred {h : Copy Reshard} {call : Late} (rejected : Bool) (held : p.held = some h) (own : call.uid = h.obj.uid) :
      Acted w p (w.defer call) { p with rejected }
  | emitted {request : JournalRequest} (permitted : Permits p (.emitJournal request)) :
      Acted w p (w.applyJournal request) { p with barrier := some ((w.databases request.database).wal + 1) }
  | emittedUnknown {request : JournalRequest} (rejected : Bool) (permitted : Permits p (.emitJournal request)) :
      Acted w p (w.applyJournal request) { p with rejected }
  | replayed {request : JournalRequest} {lsn : Nat} (permitted : Permits p (.emitJournal request))
      (recorded : lsn ≠ 0 → (request.id, lsn) ∈ (w.databases request.database).journals) :
      Acted w p w { p with barrier := some lsn }

/-- What a running pass holds has been stored, under the names it goes by. -/
structure Pass.Genuine (w : World) (p : Pass) : Prop where
  held : ∀ h, p.held = some h → (w.reshards p.name).Genuine h ∧ h.obj.name = p.name
  shards : ∀ c ∈ p.shards, (w.shards c.obj.name).Genuine c

theorem answerWrite_cases {written : Option World} {version : Nat} {reply : Reply}
    (done : answerWrite w written version reply = some (w', answer)) :
    (written = some w' ∧ (answer = .stored version ∨ answer = .failed)) ∨
      w' = w ∧ (answer = .conflict ∨ answer = .failed) := by
  cases reply with
  | done => cases written <;> simp_all [answerWrite]
  | refused applied => cases written <;> cases applied <;> simp_all [answerWrite]
  | _ => simp [answerWrite] at done

theorem answerRpc_cases {after failed : World} {reply : Reply} {answer : Except RpcError Unit}
    (done : answerRpc after failed reply = some (w', answer)) : w' = after ∨ w' = failed ∧ ∃ e, answer = .error e := by
  cases reply with
  | done => simp_all [answerRpc]
  | rpcFailed e applied =>
    cases applied with
    | true => exact .inl (by simp_all [answerRpc])
    | false => exact .inr ⟨by simp_all [answerRpc], e, by simp_all [answerRpc]⟩
  | _ => simp [answerRpc] at done

theorem putStatus_cases (written : w.putStatus r = some w') :
    ∃ current, w.reshard r.obj.name = some current ∧ (w.reshards r.obj.name).accepts r.version = true ∧
      w' = w.storeReshard r.obj.name (some { current with status := r.obj.status }) := by
  unfold World.putStatus at written
  split at written
  · cases written
  · split at written
    · exact ⟨_, ‹_›, ‹_›, (Option.some.inj written).symm⟩
    · cases written

theorem putReshard_cases (written : w.putReshard r = some w') :
    ∃ current, w.reshard r.obj.name = some current ∧ (w.reshards r.obj.name).accepts r.version = true ∧
      w' = w.storeReshard r.obj.name (if current.deleting && r.obj.finalizers.isEmpty then none
        else some { current with finalizers := r.obj.finalizers }) := by
  unfold World.putReshard at written
  split at written
  · cases written
  · split at written
    · exact ⟨_, ‹_›, ‹_›, (Option.some.inj written).symm⟩
    · cases written

theorem putShard_cases {s : Copy Shard} (written : w.putShard s = some w') :
    (w.shards s.obj.name).accepts s.version = true ∧ w' = w.storeShard s.obj.name s.obj := by
  unfold World.putShard at written
  split at written
  · exact ⟨‹_›, (Option.some.inj written).symm⟩
  · cases written

/-! ## Carrying out a call -/

theorem heard_self : Acted w p w p :=
  .heard p.cluster p.rejected (.inl rfl)

theorem Pass.rejects_eq (e : RpcError) (codes : List RpcCode) :
    p.rejects e codes = { p with rejected := p.rejected || decide (e.code ∈ codes) } := by
  unfold Pass.rejects
  split <;> simp_all

theorem heard_rejects (e : RpcError) (codes : List RpcCode) : Acted w p w (p.rejects e codes) :=
  Pass.rejects_eq e codes ▸ .heard p.cluster _ (.inl rfl)

theorem answerRead_found {read : Option α} {a : α} (found : answerRead read = .found a) :
    read = some a := by
  cases read <;> simp_all [answerRead]

theorem answerGet_cases {read : Reply → Option (Got α)} {reply : Reply} {got : Got α}
    (done : answerGet w read reply = some (w', got)) : w' = w ∧ (got = .failed ∨ read reply = some got) := by
  unfold answerGet at done
  split at done
  · cases done
    exact ⟨rfl, .inl rfl⟩
  · obtain ⟨_, answered, same⟩ := Option.map_eq_some_iff.mp done
    cases same
    exact ⟨rfl, .inr answered⟩

theorem answerCached_cases {h : History α} {reply : Reply} {got : Got (Copy α)}
    (done : answerCached w h reply = some (w', got)) :
    w' = w ∧ ∀ c, got = .found c → ∃ i, reply = .version i ∧ h.read i = some c := by
  obtain ⟨same, rfl | answered⟩ := answerGet_cases done
  · exact ⟨same, nofun⟩
  · refine ⟨same, ?_⟩
    rintro c rfl
    cases reply with
    | version i => exact ⟨i, rfl, answerRead_found (Option.some.inj answered)⟩
    | _ => cases answered

theorem answerLive_cases {h : History α} {reply : Reply} {got : Got (Copy α)}
    (done : answerLive w h reply = some (w', got)) : w' = w ∧ ∀ c, got = .found c → h.latest = some c := by
  obtain ⟨same, rfl | answered⟩ := answerGet_cases done
  · exact ⟨same, nofun⟩
  · refine ⟨same, ?_⟩
    rintro c rfl
    cases reply with
    | done => exact answerRead_found (Option.some.inj answered)
    | _ => cases answered

theorem answerFlag_cases {reply : Reply} {ok : Bool} (done : answerFlag w reply = some (w', ok)) : w' = w := by
  cases reply <;> simp_all [answerFlag]

variable {reply : Reply}

theorem exec_getReshard {name : String} {got : Got (Copy Reshard)}
    (permitted : Permits p (.getReshard name)) (done : answerCached w (w.reshards name) reply = some (w', got)) :
    Acted w p w' (p.next (.getReshard name) got) := by
  obtain ⟨rfl, unheld⟩ := permitted
  obtain ⟨rfl, found⟩ := answerCached_cases done
  cases got with
  | found h =>
    obtain ⟨i, -, read⟩ := found h rfl
    exact .readSelf unheld (History.read_genuine read)
  | notFound | failed => exact heard_self

theorem exec_getReshardLive {name : String} {got : Got (Copy Reshard)}
    (permitted : Permits p (.getReshardLive name)) (done : answerLive w (w.reshards name) reply = some (w', got)) :
    Acted w p w' (p.next (.getReshardLive name) got) := by
  cases permitted
  obtain ⟨rfl, found⟩ := answerLive_cases done
  cases got with
  | found h => exact .readLive (History.latest_current (found h rfl))
  | notFound | failed => exact heard_self

theorem Acted.storedAs {name : String} {stored : Option Reshard} (named : name = p.name)
    (acted : Acted w p (w.storeReshard p.name stored) q) : Acted w p (w.storeReshard name stored) q := by
  subst named
  exact acted

theorem exec_updateStatus (genuine : p.Genuine w)
    (permitted : Permits p (.updateStatus r))
    (done : answerWrite w (w.putStatus r) (w.reshards r.obj.name).size reply = some (w', answer)) :
    Acted w p w' (p.next (.updateStatus r) answer) := by
  obtain ⟨free, h, status, held, move, rfl⟩ := permitted
  obtain ⟨own, named⟩ := genuine.held h held
  rcases answerWrite_cases done with ⟨written, known⟩ | ⟨rfl, refused⟩
  · obtain ⟨current, found, accepted, rfl⟩ := putStatus_cases written
    have accepted : (w.reshards p.name).accepts h.version = true := named ▸ accepted
    have stored : w.reshard p.name = some h.obj := own.current accepted
    have same : current = h.obj := Option.some.inj (found.symm.trans ((congrArg w.reshard named).trans stored))
    subst same
    rcases known with rfl | rfl
    · rw [congrArg (fun name => (w.reshards name).size) named]
      exact Acted.storedAs named (.moved free held stored move accepted)
    · exact Acted.storedAs named (.movedUnknown free held stored move accepted)
  · rcases refused with rfl | rfl <;> exact .gaveUp

theorem exec_updateReshard (genuine : p.Genuine w)
    (permitted : Permits p (.updateReshard r))
    (done : answerWrite w (w.putReshard r) (w.reshards r.obj.name).size reply = some (w', answer)) :
    Acted w p w' (p.next (.updateReshard r) answer) := by
  obtain ⟨free, h, finalizers, held, rfl, cleaned⟩ := permitted
  obtain ⟨own, named⟩ := genuine.held h held
  rcases answerWrite_cases done with ⟨written, known⟩ | ⟨rfl, refused⟩
  · obtain ⟨current, found, accepted, rfl⟩ := putReshard_cases written
    have accepted : (w.reshards p.name).accepts h.version = true := named ▸ accepted
    have stored : w.reshard p.name = some h.obj := own.current accepted
    have same : current = h.obj := Option.some.inj (found.symm.trans ((congrArg w.reshard named).trans stored))
    subst same
    refine Acted.storedAs named ?_
    by_cases last : (h.obj.deleting && finalizers.isEmpty) = true
    · obtain ⟨dying, empty⟩ := Bool.and_eq_true_iff.mp last
      have dropped : cutoverClaimFinalizer ∈ h.obj.finalizers → Cleaned p h.obj := by
        rw [List.isEmpty_iff] at empty
        exact fun kept => cleaned kept (by simp [empty])
      rw [if_pos last]
      rcases known with rfl | rfl
      · have acted := Acted.unpinned held stored dropped true dying
        simpa only [Pass.next, Pass.wroteReshard, last, if_true] using acted
      · exact .unpinned held stored dropped false dying
    · rw [if_neg last]
      rcases known with rfl | rfl
      · rw [congrArg (fun name => (w.reshards name).size) named]
        have acted := Acted.pinned finalizers held stored cleaned accepted
        simpa only [Pass.next, Pass.wroteReshard, last, Bool.false_eq_true, if_false] using acted
      · exact .pinnedUnknown finalizers held stored cleaned
  · rcases refused with rfl | rfl <;> exact heard_self

theorem exec_getShard {name : String} {got : Got (Copy Shard)}
    (named : ∀ i x, (w.shards name).entry i = some x → x.name = name)
    (done : answerCached w (w.shards name) reply = some (w', got)) :
    Acted w p w' (p.next (.getShard name) got) := by
  obtain ⟨rfl, found⟩ := answerCached_cases done
  cases got with
  | found c =>
    obtain ⟨i, -, read⟩ := found c rfl
    have genuine := History.read_genuine read
    exact .readShard (named _ _ genuine ▸ genuine)
  | notFound | failed => exact .missed name

theorem exec_getShardLive {name : String} {got : Got (Copy Shard)} (permitted : Permits p (.getShardLive name))
    (done : answerLive w (w.shards name) reply = some (w', got)) :
    Acted w p w' (p.next (.getShardLive name) got) := by
  obtain ⟨h, held, rfl⟩ := permitted
  obtain ⟨rfl, found⟩ := answerLive_cases done
  cases got with
  | found c => exact .readClaim held (History.latest_current (found c rfl))
  | notFound | failed => exact heard_self

theorem ShardEdit.name {r : Reshard} {old new : Shard} (edit : ShardEdit p r old new) : new.name = old.name := by
  cases edit <;> rfl

@[simp] theorem Pass.wroteShard_held (p : Pass) (c : Copy Shard) (answer : Wrote) :
    (p.wroteShard c answer).held = p.held := by
  cases answer <;> rfl

theorem exec_updateShard {s : Copy Shard} (genuine : p.Genuine w)
    (permitted : Permits p (.updateShard s))
    (done : answerWrite w (w.putShard s) (w.shards s.obj.name).size reply = some (w', answer)) :
    Acted w p w' (p.next (.updateShard s) answer) := by
  obtain ⟨free, h, held, old, member, version, edit⟩ := permitted
  rcases answerWrite_cases done with ⟨written, known⟩ | ⟨rfl, refused⟩
  · obtain ⟨accepted, rfl⟩ := putShard_cases written
    rw [edit.name] at known accepted ⊢
    rw [version] at accepted
    exact .edited free held ((genuine.shards old member).current accepted) edit known
  · exact .tried free held edit refused

theorem exec_createShard {s : Shard} {answer : Created} (permitted : Permits p (.createShard s))
    (done : answerCreateShard w s reply = some (w', answer)) : Acted w p w' (p.next (.createShard s) answer) := by
  unfold answerCreateShard at done
  split at done
  · split at done
    · cases done
      exact heard_self
    · split at done
      · cases done
        exact .made _ (not_not.mp ‹_›) ‹_› permitted
      · cases done
  · cases done
    exact heard_self
  · cases done

theorem exec_createNode {node : Node} {answer : Created} (permitted : Permits p (.createNode node))
    (done : answerCreateNode w node reply = some (w', answer)) : Acted w p w' (p.next (.createNode node) answer) := by
  obtain ⟨h, held, own, phase, named⟩ := permitted
  unfold answerCreateNode at done
  split at done
  · split at done
    · cases done
      exact heard_self
    · cases done
      exact .madeNode held own phase named (Option.not_isSome_iff_eq_none.mp ‹_›) true
  · split at done
    · rename_i applied
      cases done
      exact .madeNode held own phase named (Option.isNone_iff_eq_none.mp (Bool.and_eq_true_iff.mp applied).2) false
    · cases done
      exact heard_self
  · cases done

theorem exists_of_any {o : Option α} {f : α → Bool} (holds : o.any f = true) :
    ∃ a, o = some a ∧ f a = true := by
  cases o with
  | none => cases holds
  | some a => exact ⟨a, rfl, holds⟩

theorem exec_getNodeController {name : String} {got : Got (Option String)}
    (done : exec w p (.getNodeController name) reply = some (w', got)) :
    Acted w p w' (p.next (.getNodeController name) got) := by
  obtain ⟨rfl, rfl | answered⟩ := answerGet_cases done
  · exact heard_self
  · cases got with
    | notFound | failed => exact heard_self
    | found controller =>
      have stored : w'.nodes name = some controller := by
        cases reply with
        | done => exact answerRead_found (Option.some.inj answered)
        | _ => cases answered
      change Acted w' p w' (if p.held.any (controller == some ·.obj.uid) then _ else _)
      split
      · rename_i own
        obtain ⟨h, held, same⟩ := exists_of_any own
        exact .knewNode held (beq_iff_eq.mp same ▸ stored)
      · exact heard_self

theorem exec_getCluster {name : String} {got : Got Cluster}
    (done : exec w p (.getCluster name) reply = some (w', got)) :
    Acted w p w' (p.next (.getCluster name) got) := by
  obtain ⟨rfl, rfl | answered⟩ := answerGet_cases done
  · exact heard_self
  · cases got with
    | notFound | failed => exact heard_self
    | found c =>
      have named : c.name = name := by
        cases reply with
        | cluster given =>
          dsimp only at answered
          split at answered
          · cases answered
            assumption
          · cases answered
        | _ => cases answered
      change Acted w' p w' (if p.held.any (·.obj.spec.clusterRef == name) then _ else _)
      split
      · rename_i own
        obtain ⟨h, held, same⟩ := exists_of_any own
        exact .heard (some c) p.rejected (.inr ⟨h, c, held, named.trans (beq_iff_eq.mp same).symm, rfl⟩)
      · exact heard_self

theorem exec_getRouting {name : String} {got : Got RoutingSpec} (permitted : Permits p (.getRouting name))
    (done : exec w p (.getRouting name) reply = some (w', got)) :
    Acted w p w' (p.next (.getRouting name) got) := by
  obtain ⟨rfl, rfl | answered⟩ := answerGet_cases done
  · exact heard_self
  · cases got with
    | notFound | failed => exact heard_self
    | found routing =>
      cases reply with
      | version i =>
        obtain ⟨h, held, rfl⟩ := permitted
        exact .readRouting held (answerRead_found (Option.some.inj answered))
      | _ => cases answered

theorem exec_listTableConfigs {got : Got (List TableConfig)} (permitted : Permits p .listTableConfigs)
    (done : answerConfigs w reply = some (w', got)) : Acted w p w' (p.next .listTableConfigs got) := by
  obtain ⟨rfl, rfl | answered⟩ := answerGet_cases done
  · exact heard_self
  · cases reply with
    | version i =>
      obtain ⟨h, held⟩ := permitted
      cases answered
      exact .readConfigs held rfl
    | _ => cases answered

theorem exec_lift {request : FenceRequest} {answer : Except RpcError Unit} (unfence : request.unfence = true)
    (permitted : Permits p (.fenceWrites request))
    (done : answerRpc (w.applyFence p.owner request) (w.defer (.fence p.owner request)) reply = some (w', answer)) :
    Acted w p w' (p.sentFence request answer) := by
  obtain ⟨free, h, held, permitted⟩ := permitted
  rw [if_pos unfence] at permitted
  obtain ⟨named, owns, live, uncommitted⟩ := permitted
  have owner : p.owner = h.obj.uid := by simp [Pass.owner, held]
  rw [World.applyFence, if_pos unfence, named] at done
  rcases answerRpc_cases done with rfl | ⟨rfl, e, rfl⟩
  · cases answer with
    | ok =>
      rw [Pass.sentFence, if_pos unfence]
      exact .lifted free held ⟨owns, live⟩ uncommitted
    | error e =>
      rw [Pass.sentFence, if_pos unfence]
      exact .liftedUnknown free held ⟨owns, live⟩ uncommitted
  · rw [Pass.sentFence, if_pos unfence]
    exact .liftTried held owner

theorem exec_fence {request : FenceRequest} {answer : Except RpcError Unit} (fence : ¬ request.unfence = true)
    (permitted : Permits p (.fenceWrites request))
    (done : answerRpc (w.applyFence p.owner request) (w.defer (.fence p.owner request)) reply = some (w', answer)) :
    Acted w p w' (p.sentFence request answer) := by
  obtain ⟨free, h, held, permitted⟩ := permitted
  rw [if_neg fence] at permitted
  obtain ⟨unfenced, undropped, freezing, -⟩ := permitted
  have owner : p.owner = h.obj.uid := by simp [Pass.owner, held]
  rw [World.applyFence, if_neg fence, owner] at done
  rcases answerRpc_cases done with rfl | ⟨rfl, e, rfl⟩
  · cases answer with
    | ok =>
      rw [Pass.sentFence, if_neg fence]
      exact .fenced free held ⟨unfenced, undropped⟩ freezing
    | error e =>
      rw [Pass.sentFence, if_neg fence, Pass.rejects_eq]
      exact .fencedUnknown _ free held ⟨unfenced, undropped⟩ freezing
  · rw [Pass.sentFence, if_neg fence, Pass.rejects_eq]
    exact .deferred _ held rfl

theorem exec_emitJournal {request : JournalRequest} {answer : Except RpcError Nat}
    (permitted : Permits p (.emitJournal request)) (done : answerJournal w request reply = some (w', answer)) :
    Acted w p w' (p.next (.emitJournal request) answer) := by
  cases reply with
  | done =>
    cases done
    exact .emitted permitted
  | replayed lsn =>
    simp only [answerJournal] at done
    split at done
    · rename_i recorded
      cases done
      exact .replayed permitted fun _ => recorded
    · cases done
  | missing =>
    cases done
    exact .replayed permitted fun nonzero => absurd rfl nonzero
  | rpcFailed e applied =>
    cases applied with
    | true =>
      cases done
      rw [show p.next (.emitJournal request) (.error e) = { p with rejected := _ } from Pass.rejects_eq e _]
      exact .emittedUnknown _ permitted
    | false =>
      cases done
      obtain ⟨-, h, held, -, -, -, -, id⟩ := permitted
      rw [show p.next (.emitJournal request) (.error e) = { p with rejected := _ } from Pass.rejects_eq e _]
      exact .deferred _ held (congrArg JournalId.uid id)
  | _ => cases done

theorem answerRpc_same {answer : Except RpcError Unit} (done : answerRpc w w reply = some (w', answer)) : w' = w := by
  rcases answerRpc_cases done with same | ⟨same, -⟩ <;> exact same

theorem exec_acted {o : Op} {answer : Ans o} (genuine : p.Genuine w)
    (named : ∀ name i x, (w.shards name).entry i = some x → x.name = name) (permitted : Permits p o)
    (done : exec w p o reply = some (w', answer)) : Acted w p w' (p.next o answer) := by
  cases o with
  | getReshard name => exact exec_getReshard permitted done
  | getReshardLive name => exact exec_getReshardLive permitted done
  | updateStatus r => exact exec_updateStatus genuine permitted done
  | updateReshard r => exact exec_updateReshard genuine permitted done
  | getShard name => exact exec_getShard (named name) done
  | getShardLive name => exact exec_getShardLive permitted done
  | updateShard s => exact exec_updateShard genuine permitted done
  | createShard s => exact exec_createShard permitted done
  | getCluster name => exact exec_getCluster done
  | getNode name | getPod name => exact (answerGet_cases done).1 ▸ heard_self
  | getNodeController name => exact exec_getNodeController done
  | createNode node => exact exec_createNode permitted done
  | ensureConfigMap name owner | dial host => exact answerFlag_cases done ▸ heard_self
  | getRouting name => exact exec_getRouting permitted done
  | listTableConfigs => exact exec_listTableConfigs permitted done
  | now =>
    cases reply with
    | done =>
      cases done
      exact .readClock
    | _ => cases done
  | fenceWrites request =>
    by_cases unfence : request.unfence = true
    · exact exec_lift unfence permitted done
    · exact exec_fence unfence permitted done
  | emitJournal request => exact exec_emitJournal permitted done
  | prepareSource request | startWorkflow request =>
    rw [answerRpc_same done]
    cases answer with
    | ok => exact heard_self
    | error e => exact heard_rejects e _
  | stopWorkflow host id => exact answerRpc_same done ▸ heard_self
  | watchWorkflows host id | getStatus host =>
    cases reply <;> cases done <;> exact heard_self

theorem exec_gives {o : Op} {answer : Ans o} (reshards : ∀ name i r, (w.reshards name).entry i = some r → r.name = name)
    (shards : ∀ name i x, (w.shards name).entry i = some x → x.name = name)
    (done : exec w p o reply = some (w', answer)) : Gives o answer := by
  cases o with
  | getReshard name =>
    cases answer with
    | found r =>
      obtain ⟨i, -, read⟩ := (answerCached_cases done).2 r rfl
      exact reshards _ _ _ (History.read_genuine read)
    | _ => trivial
  | getShard name =>
    cases answer with
    | found s =>
      obtain ⟨i, -, read⟩ := (answerCached_cases done).2 s rfl
      exact shards _ _ _ (History.read_genuine read)
    | _ => trivial
  | getCluster name =>
    cases answer with
    | found c =>
      rcases (answerGet_cases done).2 with failed | answered
      · cases failed
      · cases reply with
        | cluster given =>
          dsimp only at answered
          split at answered
          · cases answered
            assumption
          · cases answered
        | _ => cases answered
    | _ => trivial
  | _ => trivial

end PgShard.Operator
