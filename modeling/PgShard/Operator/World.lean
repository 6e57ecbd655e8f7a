import PgShard.Operator.Protocol
import PgShard.Operator.Routing
import PgShard.Lib.Runs

/-! The controllers in their surroundings: an API server that keeps every version of its objects, the source databases
behind the agents, and any interleaving of reconciles, crashes and edits by others. -/

namespace PgShard.Operator

open Versioned Effects

/-- A standing fence: the WAL position it was set at, and the UID of the reshard
that fenced last. -/
structure Fence where
  since : Nat
  owner : String
  deriving DecidableEq

/-- A database of a shard: its WAL position, its fence and every barrier emitted. -/
structure Database where
  wal : Nat := 0
  fence : Option Fence := none
  journals : List (JournalId × Nat) := []
  deriving DecidableEq

structure Thread where
  pass : Pass
  prog : Ctl Unit

structure RoutingPass where
  cluster : Cluster
  shards : List (Copy Shard) := []
  reshards : List (Copy Reshard) := []

structure RoutingThread where
  pass : RoutingPass
  prog : RoutingCtl Unit

/-- A call that has failed for its controller, and may yet be carried out. -/
inductive Late
  | fence (owner : String) (request : FenceRequest)
  | journal (request : JournalRequest)

def Late.uid : Late → String
  | .fence owner _ => owner
  | .journal request => request.id.uid

/-- `uids` and `names` are the UIDs and the reshard names used so far, `outside`
the UIDs of owners that are neither reshards nor shards. `nodes` holds the
controlling owner of each node. -/
structure World where
  now : Nat := 0
  uids : List String := []
  outside : List String := []
  names : List String := []
  nodes : String → Option (Option String) := fun _ => none
  configs : History (List TableConfig) := {}
  reshards : String → History Reshard := fun _ => {}
  shards : String → History Shard := fun _ => {}
  routings : String → History RoutingSpec := fun _ => {}
  databases : String → Database := fun _ => {}
  late : List Late := []
  threads : String → Option Thread := fun _ => none
  compiles : String → Option RoutingThread := fun _ => none

namespace World

def reshard (w : World) (name : String) : Option Reshard :=
  (w.reshards name).current

def shard (w : World) (name : String) : Option Shard :=
  (w.shards name).current

def storeReshard (w : World) (name : String) (stored : Option Reshard) : World :=
  { w with reshards := Function.update w.reshards name ((w.reshards name).push stored) }

def storeShard (w : World) (name : String) (stored : Shard) : World :=
  { w with shards := Function.update w.shards name ((w.shards name).push (some stored)) }

def storeRouting (w : World) (name : String) (stored : RoutingSpec) : World :=
  { w with routings := Function.update w.routings name ((w.routings name).push (some stored)) }

def setDatabase (w : World) (name : String) (db : Database) : World :=
  { w with databases := Function.update w.databases name db }

def setThread (w : World) (name : String) (thread : Option Thread) : World :=
  { w with threads := Function.update w.threads name thread }

def setCompile (w : World) (name : String) (thread : Option RoutingThread) : World :=
  { w with compiles := Function.update w.compiles name thread }

def useUid (w : World) (uid : String) : World :=
  { w with uids := uid :: w.uids }

def useName (w : World) (name : String) : World :=
  { w with names := name :: w.names }

def freshUid (w : World) (uid : String) : Bool :=
  uid != "" && !w.uids.contains uid && !w.outside.contains uid

def storeNode (w : World) (name : String) (controller : Option String) : World :=
  { w with nodes := Function.update w.nodes name (some controller) }

def storeConfigs (w : World) (items : List TableConfig) : World :=
  { w with configs := w.configs.push (some items) }

def noteOwner (w : World) (controller : Option String) : World :=
  { w with outside := controller.toList ++ w.outside }

def outsider (w : World) (controller : Option String) : Bool :=
  controller.all (!w.uids.contains ·)

/-- Others place a shard nowhere, or on a node that no reshard controls. -/
def placeable (w : World) (nodeRef : String) : Bool :=
  match w.nodes nodeRef with
  | some controller => w.outsider controller
  | none => nodeRef == ""

def putStatus (w : World) (r : Copy Reshard) : Option World :=
  match w.reshard r.obj.name with
  | none => none
  | some current =>
    if (w.reshards r.obj.name).accepts r.version then
      some (w.storeReshard r.obj.name (some { current with status := r.obj.status }))
    else none

/-- A metadata write. An object being deleted goes with its last finalizer. -/
def putReshard (w : World) (r : Copy Reshard) : Option World :=
  match w.reshard r.obj.name with
  | none => none
  | some current =>
    if (w.reshards r.obj.name).accepts r.version then
      some (w.storeReshard r.obj.name
        (if current.deleting && r.obj.finalizers.isEmpty then none
          else some { current with finalizers := r.obj.finalizers }))
    else none

def putShard (w : World) (s : Copy Shard) : Option World :=
  if (w.shards s.obj.name).accepts s.version then some (w.storeShard s.obj.name s.obj) else none

/-- A fence that already stands keeps its start. -/
def raiseFence (w : World) (database owner : String) : World :=
  let db := w.databases database
  w.setDatabase database { db with fence := some ⟨(db.fence.map (·.since)).getD db.wal, owner⟩ }

def liftFence (w : World) (database : String) : World :=
  w.setDatabase database { w.databases database with fence := none }

def applyFence (w : World) (owner : String) (request : FenceRequest) : World :=
  if request.unfence then w.liftFence request.database else w.raiseFence request.database owner

/-- `EmitJournal` of a barrier that is not recorded yet. -/
def applyJournal (w : World) (request : JournalRequest) : World :=
  let db := w.databases request.database
  w.setDatabase request.database
    { db with wal := db.wal + 1, journals := (request.id, db.wal + 1) :: db.journals }

def defer (w : World) (call : Late) : World :=
  { w with late := call :: w.late }

def carryOut (w : World) : Late → World
  | .fence owner request => w.applyFence owner request
  | .journal request => w.applyJournal request

end World

/-- What the surroundings decide about a call: the version a cached read sees,
whether it fails and was applied all the same, or what an object neither
controller writes looks like. -/
inductive Reply
  | done
  | version (i : Nat)
  | versions (items : List (String × Nat))
  | refused (applied : Bool)
  | rpcFailed (e : RpcError) (applied : Bool)
  | replayed (lsn : Nat)
  | created (uid : String)
  | missing
  | cluster (c : Cluster)
  | node (n : Node)
  | pod (p : Pod)
  | workflow (status : WorkflowStatus)
  | instance_ (status : Option InstanceStatus)

def answerRead {α : Type} : Option α → Got α
  | some a => .found a
  | none => .notFound

/-- The outcome of a write that leads to `written` if it is accepted. -/
def answerWrite (w : World) (written : Option World) (version : Nat) : Reply → Option (World × Wrote)
  | .done => match written with
    | some after => some (after, .stored version)
    | none => some (w, .conflict)
  | .refused applied => some (if applied then written.getD w else w, .failed)
  | _ => none

/-- An RPC that leads to `after` if it is carried out, and to `failed` if it is not, or not yet. -/
def answerRpc (after failed : World) : Reply → Option (World × Except RpcError Unit)
  | .done => some (after, .ok ())
  | .rpcFailed e applied => some (if applied then after else failed, .error e)
  | _ => none

def Pass.owner (p : Pass) : String :=
  (p.held.map (·.obj.uid)).getD ""

def answerGet {α : Type} (w : World) (read : Reply → Option (Got α)) (reply : Reply) : Option (World × Got α) :=
  match reply with
  | .refused _ => some (w, .failed)
  | reply => (read reply).map (w, ·)

/-- A read through the cache, which may see any version there has been. -/
def answerCached {α : Type} (w : World) (h : History α) : Reply → Option (World × Got (Copy α)) :=
  answerGet w fun
    | .version i => some (answerRead (h.read i))
    | _ => none

def answerLive {α : Type} (w : World) (h : History α) : Reply → Option (World × Got (Copy α)) :=
  answerGet w fun
    | .done => some (answerRead h.latest)
    | _ => none

def answerFlag (w : World) : Reply → Option (World × Bool)
  | .done => some (w, true)
  | .refused _ => some (w, false)
  | _ => none

def answerCreateShard (w : World) (s : Shard) : Reply → Option (World × Created)
  | .created uid =>
    if (w.shards s.name).size ≠ 0 then some (w, .alreadyExists)
    else if w.freshUid uid then some ((w.useUid uid).storeShard s.name { s with uid }, .created)
    else none
  | .refused _ => some (w, .failed)
  | _ => none

def answerCreateNode (w : World) (node : Node) : Reply → Option (World × Created)
  | .done =>
    if (w.nodes node.name).isSome then some (w, .alreadyExists)
    else some (w.storeNode node.name node.controller, .created)
  | .refused applied =>
    some (if applied && (w.nodes node.name).isNone then w.storeNode node.name node.controller else w, .failed)
  | _ => none

def answerConfigs (w : World) : Reply → Option (World × Got (List TableConfig)) :=
  answerGet w fun
    | .version i => some (.found ((w.configs.entry i).getD []))
    | _ => none

def answerNode (w : World) : Reply → Option (World × Got Node) :=
  answerGet w fun
    | .node n => some (.found n)
    | .missing => some .notFound
    | _ => none

def answerPod (w : World) : Reply → Option (World × Got Pod) :=
  answerGet w fun
    | .pod pod => some (.found pod)
    | .missing => some .notFound
    | _ => none

/-- `EmitJournal`: a new barrier, a recorded one replayed, or no position. -/
def answerJournal (w : World) (request : JournalRequest) : Reply → Option (World × Except RpcError Nat)
  | .done => some (w.applyJournal request, .ok ((w.databases request.database).wal + 1))
  | .replayed lsn =>
    if (request.id, lsn) ∈ (w.databases request.database).journals then some (w, .ok lsn) else none
  | .missing => some (w, .ok 0)
  | .rpcFailed e applied => some (if applied then w.applyJournal request else w.defer (.journal request), .error e)
  | _ => none

/-- What a call does and answers. -/
def exec (w : World) (p : Pass) : (o : Op) → Reply → Option (World × Ans o)
  | .getReshard name => answerCached w (w.reshards name)
  | .getReshardLive name => answerLive w (w.reshards name)
  | .updateStatus r => answerWrite w (w.putStatus r) (w.reshards r.obj.name).size
  | .updateReshard r => answerWrite w (w.putReshard r) (w.reshards r.obj.name).size
  | .getShard name => answerCached w (w.shards name)
  | .getShardLive name => answerLive w (w.shards name)
  | .updateShard s => answerWrite w (w.putShard s) (w.shards s.obj.name).size
  | .createShard s => answerCreateShard w s
  | .getCluster name => answerGet w fun
    | .cluster c => if c.name = name then some (.found c) else none
    | .missing => some .notFound
    | _ => none
  | .getNode _ => answerNode w
  | .getNodeController name => answerGet w fun
    | .done => some (answerRead (w.nodes name))
    | .missing => some .notFound
    | _ => none
  | .createNode node => answerCreateNode w node
  | .ensureConfigMap _ _ => answerFlag w
  | .getPod _ => answerPod w
  | .getRouting name => answerGet w fun
    | .version i => some (answerRead ((w.routings name).entry i))
    | _ => none
  | .listTableConfigs => answerConfigs w
  | .now => fun
    | .done => some (w, w.now)
    | _ => none
  | .dial _ => answerFlag w
  | .fenceWrites request => answerRpc (w.applyFence p.owner request) (w.defer (.fence p.owner request))
  | .emitJournal request => answerJournal w request
  | .prepareSource _ => answerRpc w w
  | .startWorkflow _ => answerRpc w w
  | .stopWorkflow _ _ => answerRpc w w
  | .watchWorkflows _ _ => fun
    | .workflow status => some (w, .ok status)
    | .rpcFailed e _ => some (w, .error e)
    | _ => none
  | .getStatus _ => fun
    | .instance_ status => some (w, .ok status)
    | .rpcFailed e _ => some (w, .error e)
    | _ => none

def answerList {α : Type} (w : World) (histories : String → History α) :
    Reply → Option (World × Got (List (Copy α))) :=
  answerGet w fun
    | .versions items =>
      if (items.map (·.1)).Nodup then some (.found (items.filterMap fun (name, i) => (histories name).read i))
      else none
    | _ => none

def answerCreateRouting (w : World) (name : String) (spec : RoutingSpec) : Reply → Option (World × Created)
  | .done =>
    if (w.routings name).current.isSome then some (w, .alreadyExists)
    else some (w.storeRouting name spec, .created)
  | .refused applied =>
    some (if applied && (w.routings name).current.isNone then w.storeRouting name spec else w, .failed)
  | _ => none

def World.putRouting (w : World) (name : String) (spec : Copy RoutingSpec) : Option World :=
  if (w.routings name).accepts spec.version then some (w.storeRouting name spec.obj) else none

def execRouting (w : World) : (o : RoutingOp) → Reply → Option (World × RoutingAns o)
  | .listShards => answerList w w.shards
  | .listReshards => answerList w w.reshards
  | .listTableConfigs => answerConfigs w
  | .getNode _ => answerNode w
  | .getPod _ => answerPod w
  | .updateReshard r => answerWrite w (w.putReshard r) (w.reshards r.obj.name).size
  | .getRouting name => answerCached w (w.routings name)
  | .createRouting name spec => answerCreateRouting w name spec
  | .updateRouting name spec => answerWrite w (w.putRouting name spec) (w.routings name).size

def RoutingPass.next (p : RoutingPass) : (o : RoutingOp) → RoutingAns o → RoutingPass
  | .listShards, .found items => { p with shards := items }
  | .listReshards, .found items => { p with reshards := items }
  | _, _ => p

/-- One thing that happens. -/
inductive Choice
  | start (name : String)
  | advance (name : String) (reply : Reply)
  | stop (name : String)
  | compile (cluster : Cluster) (retries : Nat)
  | advanceCompile (cluster : String) (reply : Reply)
  | stopCompile (cluster : String)
  | tick (seconds : Nat)
  | createReshard (name uid : String) (spec : ReshardSpec)
  | deleteReshard (name : String)
  | touchReshard (name : String)
  | createShard (shard : Shard)
  | editShard (shard : Shard)
  | createNode (name : String) (controller : Option String)
  | editConfigs (items : List TableConfig)
  | extendWal (database : String)
  | land (i : Nat)

/-- An edit of a shard by others. It cannot touch the object's identity, its owner,
its cluster and key range or the claim, and puts no hidden shard into service. -/
def othersEdit (old new : Shard) : Shard :=
  { new with
    name := old.name
    uid := old.uid
    controller := old.controller
    clusterRef := old.clusterRef
    keyRange := old.keyRange
    claim := old.claim
    serving := old.serving && new.serving }

/-- `stop` ends a reconcile at its end or by a crash at any point before it. `land` carries out a call that has
failed. -/
def step (w : World) : Choice → Option World
  | .start name =>
    match w.threads name with
    | some _ => none
    | none => some (w.setThread name (some ⟨{ name }, reconcile name⟩))
  | .advance name reply =>
    match w.threads name with
    | some ⟨pass, .call o k⟩ =>
      (exec w pass o reply).map fun (after, answer) =>
        after.setThread name (some ⟨pass.next o answer, k answer⟩)
    | _ => none
  | .stop name => some (w.setThread name none)
  | .compile cluster retries =>
    match w.compiles cluster.name with
    | some _ => none
    | none => some (w.setCompile cluster.name (some ⟨{ cluster }, compileAndWrite cluster retries⟩))
  | .advanceCompile cluster reply =>
    match w.compiles cluster with
    | some ⟨pass, .call o k⟩ =>
      (execRouting w o reply).map fun (after, answer) =>
        after.setCompile cluster (some ⟨pass.next o answer, k answer⟩)
    | _ => none
  | .stopCompile cluster => some (w.setCompile cluster none)
  | .tick seconds => some { w with now := w.now + seconds }
  | .createReshard name uid spec =>
    if name ≠ "" ∧ (w.reshard name).isNone ∧ w.freshUid uid then
      some (((w.useUid uid).useName name).storeReshard name (some { name, uid, spec }))
    else none
  | .deleteReshard name =>
    (w.reshard name).map fun r =>
      w.storeReshard name (if r.finalizers.isEmpty then none else some { r with deleting := true })
  | .touchReshard name => (w.reshard name).map fun r => w.storeReshard name (some r)
  | .createShard shard =>
    if (w.shards shard.name).size = 0 ∧ w.freshUid shard.uid ∧ w.outsider shard.controller ∧
        w.placeable shard.nodeRef then
      some (((w.noteOwner shard.controller).useUid shard.uid).storeShard shard.name { shard with claim := "" })
    else none
  | .editShard shard =>
    match w.shard shard.name with
    | none => none
    | some old =>
      if shard.nodeRef = old.nodeRef ∨ w.placeable shard.nodeRef then
        some (w.storeShard shard.name (othersEdit old shard))
      else none
  | .createNode name controller =>
    if (w.nodes name).isNone ∧ w.outsider controller then
      some ((w.noteOwner controller).storeNode name controller)
    else none
  | .editConfigs items => some (w.storeConfigs items)
  | .extendWal database =>
    let db := w.databases database
    some (w.setDatabase database { db with wal := db.wal + 1 })
  | .land i => w.late[i]?.map fun call => { w.carryOut call with late := w.late.eraseIdx i }

def run : World → List Choice → Option World :=
  Runs.exec step fun _ _ => true

end PgShard.Operator
