import Mathlib
import PgShard.Operator.Cutover

/-! The routing controller: it folds the cluster's shards, table configs and the
gates of in-flight reshards into one compiled spec and writes it. -/

namespace PgShard.Operator

open Versioned Effects Quote

def defaultWriteLeaseSeconds : Nat := 10

structure CompileInputs where
  cluster : Cluster
  shards : List Shard
  tableConfigs : List TableConfig
  endpoints : List (String × RoutingEndpoint)
  gates : List RoutingGate

/-- The current primary's endpoint, if that instance is ready and in the primary role. -/
def publishedPrimary (endpoints : List (String × RoutingEndpoint)) (shard : Shard) : Option RoutingEndpoint :=
  if shard.currentPrimary = "" then none
  else
    match shard.instances.find? (·.pod == shard.currentPrimary) with
    | none => none
    | some inst => if ¬ inst.ready ∨ inst.role ≠ .primary then none else endpoints.lookup shard.currentPrimary

def replicaEndpoints (endpoints : List (String × RoutingEndpoint)) (shard : Shard) : List RoutingEndpoint :=
  (shard.instances.filterMap fun inst =>
    if inst.role ≠ .replica ∨ inst.pod = shard.currentPrimary then none
    else (endpoints.lookup inst.pod).map fun ep => { ep with canRead := inst.ready }).insertionSort
      fun a b => a.pod ≤ b.pod

def shardEntry (endpoints : List (String × RoutingEndpoint)) (shard : Shard) : RoutingShard where
  name := shard.name
  keyRange := shard.keyRange
  state := if shard.serving then .serving else .hidden
  primary := publishedPrimary endpoints shard
  replicas := replicaEndpoints endpoints shard

def routedTable (t : TableEntry) : TableEntry :=
  { t with
    schema := if t.schema = "" then defaultSchema else t.schema
    sequences := t.sequences.insertionSort fun a b => [a.1, a.2] ≤ [b.1, b.2] }

def foldedTableName (t : TableEntry) : String :=
  String.ofList ((t.schema ++ "." ++ t.name).toList.map Char.toLower)

/-- The duplicate check of `compileTables`, over the tables in config order. -/
def distinctTables : List (String × TableEntry) → List (String × String) → Except String Unit
  | [], _ => .ok ()
  | (config, t) :: rest, owner =>
    match owner.lookup (foldedTableName t) with
    | some first =>
      .error ("table " ++ foldedTableName t ++ " declared in both " ++ first ++ " and " ++ config)
    | none => distinctTables rest ((foldedTableName t, config) :: owner)

def compileTables (configs : List TableConfig) : Except String (List TableEntry) := do
  let sorted := configs.insertionSort fun a b => a.name ≤ b.name
  let tables := sorted.flatMap fun tc => tc.tables.map fun t => (tc.name, routedTable t)
  distinctTables tables []
  .ok ((tables.map (·.2)).insertionSort fun a b => [a.schema, a.name] ≤ [b.schema, b.name])

def shardKey (s : Shard) : List String :=
  [s.keyRange.start, s.keyRange.stop, s.name]

structure CompiledShards where
  entries : List RoutingShard := []
  servingRanges : List KeyRange := []
  sequenceEndpoint : Option RoutingEndpoint := none

/-- The loop of `Compile` over the sorted shards. The system shard is not part of
the keyspace; it is published as the sequence endpoint. -/
def compileShards (endpoints : List (String × RoutingEndpoint)) : List Shard → Bool →
    Except String CompiledShards
  | [], _ => .ok {}
  | s :: rest, systemSeen =>
    if s.role = .system then
      if systemSeen then .error "cluster has more than one system shard"
      else do
        let others ← compileShards endpoints rest true
        .ok { others with sequenceEndpoint := publishedPrimary endpoints s }
    else
      match toRange s.keyRange with
      | .error e => .error ("shard " ++ s.name ++ ": " ++ e)
      | .ok kr => do
        let others ← compileShards endpoints rest systemSeen
        .ok { others with
          entries := shardEntry endpoints s :: others.entries
          servingRanges := if s.serving then kr :: others.servingRanges else others.servingRanges }

def duplicateGate : List RoutingGate → List String → Option String
  | [], _ => none
  | g :: rest, seen => if g.id ∈ seen then some g.id else duplicateGate rest (g.id :: seen)

/-- The desired spec without epoch and topology generation. Every list is sorted,
so that the spec does not depend on the input order. -/
def compile (inputs : CompileInputs) : Except String RoutingSpec :=
  match duplicateGate inputs.gates [] with
  | some id => .error ("duplicate gate id " ++ quoted id)
  | none => do
    let compiled ← compileShards inputs.endpoints
      (inputs.shards.insertionSort fun a b => shardKey a ≤ shardKey b) false
    match validatePartition compiled.servingRanges with
    | .error e => .error ("serving shards do not partition the keyspace: " ++ e)
    | .ok () =>
      let tables ← compileTables inputs.tableConfigs
      .ok {
        writeLeaseSeconds := match inputs.cluster.routerWriteLeaseSeconds with
          | some lease => if lease > 0 then lease else defaultWriteLeaseSeconds
          | none => defaultWriteLeaseSeconds
        hashFunction := inputs.cluster.hashFunction
        gates := inputs.gates.insertionSort fun a b => a.id ≤ b.id
        shards := compiled.entries
        sequenceEndpoint := compiled.sequenceEndpoint
        tables }

def sourceOf (shards : List Shard) (rs : Reshard) : Option Shard :=
  shards.reverse.find? (·.name == rs.spec.sourceShard)

/-- The gate of one reshard of the cluster. It follows the deadline field, never
the phase; a committed switch whose source still serves must not lose its gate. -/
def reshardGate (shards : List Shard) (rs : Reshard) : Except String (Option RoutingGate) :=
  match rs.status.cutoverGateDeadline, sourceOf shards rs with
  | none, some source =>
    if rs.status.switchCommitted ∧ source.serving then
      .error ("reshard " ++ rs.name ++ " committed its switch but source " ++ rs.spec.sourceShard ++
        " still serves; refusing ungated routing")
    else .ok none
  | none, none => .ok none
  | some _, none =>
    .error ("reshard " ++ rs.name ++ " requests a gate but source shard " ++ rs.spec.sourceShard ++
      " does not exist")
  | some deadline, some source =>
    .ok (some {
      id := gateID rs.name
      mode := .bufferWrites
      «match» := { keyRanges := [source.keyRange] }
      deadline })

def cutoverGates (cluster : String) (shards : List Shard) : List Reshard → Except String (List RoutingGate)
  | [] => .ok []
  | rs :: rest =>
    if rs.spec.clusterRef ≠ cluster then cutoverGates cluster shards rest
    else do
      let gate ← reshardGate shards rs
      let gates ← cutoverGates cluster shards rest
      .ok (gate.toList ++ gates)

def RoutingSpec.content (spec : RoutingSpec) : RoutingSpec :=
  { spec with epoch := 0, topologyGeneration := 0 }

def specEquivalent (a b : RoutingSpec) : Bool :=
  a.content == b.content

def structuralShard (s : RoutingShard) : String × KeyBounds × RoutingShardState :=
  (s.name, s.keyRange, s.state)

def structuralChange (old updated : RoutingSpec) : Bool :=
  old.shards.map structuralShard != updated.shards.map structuralShard || old.tables != updated.tables

def nextSpec (current desired : RoutingSpec) : RoutingSpec :=
  { desired with
    epoch := current.epoch + 1
    topologyGeneration :=
      if structuralChange current desired then current.topologyGeneration + 1 else current.topologyGeneration }

/-- The calls of the routing controller; its reads go through the cache. -/
inductive RoutingOp
  | listShards
  | listReshards
  | listTableConfigs
  | getNode (name : String)
  | getPod (name : String)
  | updateReshard (r : Copy Reshard)
  | getRouting (name : String)
  | createRouting (name : String) (spec : RoutingSpec)
  | updateRouting (name : String) (spec : Copy RoutingSpec)

def RoutingAns : RoutingOp → Type
  | .listShards => Got (List (Copy Shard))
  | .listReshards => Got (List (Copy Reshard))
  | .listTableConfigs => Got (List TableConfig)
  | .getNode _ => Got Node
  | .getPod _ => Got Pod
  | .updateReshard _ => Wrote
  | .getRouting _ => Got (Copy RoutingSpec)
  | .createRouting _ _ => Created
  | .updateRouting _ _ => Wrote

/-- A reconcile of the routing controller ends early with an error, or by keeping
the last good routing. -/
inductive RoutingStop
  | failed
  | kept

abbrev RoutingCtl := Prog RoutingAns RoutingStop

def rcall (o : RoutingOp) : RoutingCtl (RoutingAns o) :=
  Prog.perform o

def primaryStillVerified (shard : Shard) (node : Node) : RoutingCtl Bool := do
  if shard.currentPrimary = "" then .ret false
  else
    match ← rcall (.getPod shard.currentPrimary) with
    | .found pod => .ret (pod.controller == some node.uid && databaseVerified shard node pod)
    | _ => .ret false

def cachedNode (nodes : List (String × Option Node)) (ref : String) :
    RoutingCtl (List (String × Option Node) × Option Node) := do
  match nodes.lookup ref with
  | some node => .ret (nodes, node)
  | none =>
    match ← rcall (.getNode ref) with
    | .found node => .ret ((ref, some node) :: nodes, some node)
    | .notFound => .ret ((ref, none) :: nodes, none)
    | .failed => .exit .failed

/-- The instance view of a placed shard comes from its node, and a primary that is
not verified on it any more is not published. -/
def overlayNode (shard : Shard) : Option Node → RoutingCtl Shard
  | none => .ret { shard with instances := [], currentPrimary := "" }
  | some node => do
    let verified ← primaryStillVerified { shard with instances := node.instances } node
    .ret { shard with
      instances := node.instances
      currentPrimary := if verified then shard.currentPrimary else "" }

def overlayShards : List Shard → List (String × Option Node) →
    RoutingCtl (List Shard × List (String × Option Node))
  | [], nodes => .ret ([], nodes)
  | s :: rest, nodes => do
    if s.nodeRef = "" then
      let (others, nodes) ← overlayShards rest nodes
      .ret (s :: others, nodes)
    else
      let (nodes, node) ← cachedNode nodes s.nodeRef
      let placed ← overlayNode s node
      let (others, nodes) ← overlayShards rest nodes
      .ret (placed :: others, nodes)

def resolveInstances (node : Node) : List InstanceState → List (String × RoutingEndpoint) →
    RoutingCtl (List (String × RoutingEndpoint))
  | [], endpoints => .ret endpoints
  | inst :: rest, endpoints => do
    if (endpoints.lookup inst.pod).isSome then resolveInstances node rest endpoints
    else
      match ← rcall (.getPod inst.pod) with
      | .failed => .exit .failed
      | .notFound => resolveInstances node rest endpoints
      | .found pod =>
        if pod.controller ≠ some node.uid ∨ pod.podIP = "" then resolveInstances node rest endpoints
        else resolveInstances node rest ((inst.pod, ⟨inst.pod, pod.podIP, 5432, false⟩) :: endpoints)

def resolveEndpoints (nodes : List (String × Option Node)) : List Shard → List (String × RoutingEndpoint) →
    RoutingCtl (List (String × RoutingEndpoint))
  | [], endpoints => .ret endpoints
  | s :: rest, endpoints => do
    match (nodes.lookup s.nodeRef).join with
    | none => resolveEndpoints nodes rest endpoints
    | some node => do
      let endpoints ← resolveInstances node s.instances endpoints
      resolveEndpoints nodes rest endpoints

def holdsGate (shards : List Shard) (rs : Reshard) : Bool :=
  rs.status.cutoverGateDeadline.isSome ||
    (rs.status.switchCommitted && (sourceOf shards rs).any (·.serving))

def syncGateFinalizer (rs : Copy Reshard) (holding : Bool) : RoutingCtl Unit := do
  let has := decide (routingGateFinalizer ∈ rs.obj.finalizers)
  if holding = has then .ret ()
  else
    let obj := if holding then rs.obj.addFinalizer routingGateFinalizer
      else rs.obj.removeFinalizer routingGateFinalizer
    match ← rcall (.updateReshard { rs with obj }) with
    | .stored _ => .ret ()
    | _ => .exit .failed

def syncGateFinalizers (cluster : String) (shards : List Shard) : List (Copy Reshard) → RoutingCtl Unit
  | [] => .ret ()
  | rs :: rest => do
    if rs.obj.spec.clusterRef ≠ cluster then syncGateFinalizers cluster shards rest
    else do
      syncGateFinalizer rs (holdsGate shards rs.obj)
      syncGateFinalizers cluster shards rest

/-- `routing.Write`: retried on a conflict, here at most `retries` times. -/
def write (key : String) (desired : RoutingSpec) : Nat → RoutingCtl (Nat × Bool)
  | 0 => .exit .failed
  | retries + 1 => do
    match ← rcall (.getRouting key) with
    | .failed => .exit .failed
    | .notFound =>
      match ← rcall (.createRouting key { desired with epoch := 1, topologyGeneration := 1 }) with
      | .created => .ret (1, true)
      | .alreadyExists => write key desired retries
      | .failed => .exit .failed
    | .found current =>
      if specEquivalent current.obj desired then .ret (current.obj.epoch, false)
      else
        match ← rcall (.updateRouting key { current with obj := nextSpec current.obj desired }) with
        | .stored _ => .ret (current.obj.epoch + 1, true)
        | .conflict => write key desired retries
        | .failed => .exit .failed

def listed {α : Type} : Got (List α) → RoutingCtl (List α)
  | .found items => .ret items
  | _ => .exit .failed

def compileAndWrite (cluster : Cluster) (retries : Nat) : RoutingCtl Unit := do
  let items ← listed (← rcall .listShards)
  let own := (items.map (·.obj)).filter (·.clusterRef == cluster.name)
  let (shards, nodes) ← overlayShards own []
  let configs ← listed (← rcall .listTableConfigs)
  let endpoints ← resolveEndpoints nodes shards []
  let reshards ← listed (← rcall .listReshards)
  syncGateFinalizers cluster.name shards reshards
  match cutoverGates cluster.name shards (reshards.map (·.obj)) with
  | .error _ => .exit .kept
  | .ok gates =>
    match compile {
        cluster
        shards
        tableConfigs := configs.filter (·.clusterRef == cluster.name)
        endpoints
        gates } with
    | .error _ => .exit .kept
    | .ok desired =>
      let _ ← write cluster.name desired retries
      .ret ()

end PgShard.Operator
