import PgShard.Operator.Calls

/-! The first phases of a reshard: validating the split and creating its hidden
target shards. -/

namespace PgShard.Operator

open Versioned Effects Quote

def sourceRefused (reshard : Reshard) (source : Shard) : Option (String × String) :=
  if source.clusterRef ≠ reshard.spec.clusterRef then
    some ("SourceClusterMismatch", "source shard " ++ quoted source.name ++ " belongs to cluster " ++
      quoted source.clusterRef ++ ", not this reshard's cluster " ++ quoted reshard.spec.clusterRef)
  else if source.role = .system then
    some ("SourceNotReshardable",
      "source shard " ++ quoted source.name ++ " is the system shard and cannot be resharded")
  else if ¬ source.serving then
    some ("SourceNotServing",
      "source shard " ++ quoted source.name ++ " is not serving; its data is not authoritative")
  else none

def parseTargets : List KeyBounds → Except String (List KeyRange)
  | [] => .ok []
  | tr :: rest => do
    match toRange tr with
    | .error e =>
      .error ("target range " ++ quoted tr.start ++ "-" ++ quoted tr.stop ++ " is invalid: " ++ e)
    | .ok t => .ok (t :: (← parseTargets rest))

def partitionRefused (reshard : Reshard) (source : Shard) : Option (String × String) :=
  match toRange source.keyRange with
  | .error e =>
    some ("InvalidSourceRange", "source shard " ++ quoted source.name ++ " has an invalid key range: " ++ e)
  | .ok sourceRange =>
    match parseTargets reshard.spec.targetRanges with
    | .error e => some ("InvalidPartition", e)
    | .ok targets =>
      match validateReshardPartition sourceRange targets with
      | .error e => some ("InvalidPartition", e)
      | .ok () => none

/-- A missing source or cluster is a transient race; an invalid partition is
terminal. The validated objects are pinned by UID. -/
def reconcileValidating (r : Copy Reshard) : Ctl (Copy Reshard) := do
  match ← fetchShard r.obj.spec.sourceShard with
  | none =>
    .ret (setReshardCondition (modifyStatus r fun s => { s with phase := .validating }) .validated false
      "SourceNotFound" ("source shard " ++ quoted r.obj.spec.sourceShard ++ " not found yet"))
  | some source =>
    match sourceRefused r.obj source.obj with
    | some (reason, message) => .ret (fail r .validated reason message)
    | none =>
      match ← fetchCluster r.obj.spec.clusterRef with
      | none =>
        .ret (setReshardCondition (modifyStatus r fun s => { s with phase := .validating }) .validated false
          "ClusterNotFound" ("cluster " ++ quoted r.obj.spec.clusterRef ++ " not found yet"))
      | some cluster =>
        match partitionRefused r.obj source.obj with
        | some (reason, message) => .ret (fail r .validated reason message)
        | none =>
          .ret (setReshardCondition
            (modifyStatus r fun s => { s with
              sourceShardUID := source.obj.uid
              clusterUID := cluster.uid
              phase := .provisioningTargets })
            .validated true "PartitionValid" "target ranges partition the source shard's key range")

def nodeNameMaxLength : Nat := 58

def sharedNodeName (cluster : String) : String :=
  cluster ++ "-shared"

def placementOf (cluster : Cluster) : PlacementMode × String :=
  match cluster.placement with
  | none => (.dedicatedInstance, "")
  | some (mode, colocateWith) => (mode.getD .dedicatedInstance, colocateWith)

def nodeFor (name : String) : Except String Node :=
  if name.utf8ByteSize > nodeNameMaxLength then
    .error ("node name " ++ quoted name ++ " exceeds " ++ toString nodeNameMaxLength ++
      " characters; shorten the cluster name")
  else .ok { name }

structure Placement where
  assignment : String → String
  owned : List Node
  external : String

def desiredPlacement (cluster : Cluster) (names : List String) : Except String Placement :=
  match placementOf cluster with
  | (.shared, colocateWith) =>
    if colocateWith = "" then do
      let node ← nodeFor (sharedNodeName cluster.name)
      .ok ⟨fun _ => sharedNodeName cluster.name, [node], ""⟩
    else .ok ⟨fun _ => sharedNodeName colocateWith, [], sharedNodeName colocateWith⟩
  | _ => do
    let owned ← names.mapM nodeFor
    .ok ⟨id, owned, ""⟩

def targetShardFor (cluster : Cluster) (placement : Placement) (tr : KeyBounds) : Shard where
  name := shardName cluster.name tr.start tr.stop
  clusterRef := cluster.name
  keyRange := tr
  nodeRef := placement.assignment (shardName cluster.name tr.start tr.stop)

def configMapName (objectName : String) : Except String String :=
  let name := objectName ++ "-postgres-config"
  if name.utf8ByteSize > 253 then
    .error ("config map name " ++ quoted name ++ " exceeds 253 characters; shorten the cluster name")
  else .ok name

def ensureReshardConfigMap (r : Copy Reshard) (objectName : String) : Ctl Unit := do
  match configMapName objectName with
  | .error _ => .exit .failed
  | .ok name =>
    match ← call (.ensureConfigMap name r.obj.uid) with
    | true => .ret ()
    | false => .exit .failed

/-- Creates an object the reshard owns, with its config map, if it is absent. One
that somebody else controls is a collision, surfaced as a condition. -/
def ensureOwned (r : Copy Reshard) (kind name : String) (existing : Option (Option String))
    (create : Ctl Created) : Ctl Unit := do
  match existing with
  | none =>
    match ← create with
    | .created => ensureReshardConfigMap r name
    | .alreadyExists => .exit (.returned r)
    | .failed => .exit .failed
  | some controller =>
    if controller ≠ some r.obj.uid then
      .exit (.returned (setReshardCondition r .targetsProvisioned false "TargetCollision"
        ("target " ++ kind ++ " " ++ name ++ " exists but is not controlled by reshard " ++ r.obj.name)))
    else ensureReshardConfigMap r name

def ensureReshardNode (r : Copy Reshard) (node : Node) : Ctl Unit := do
  let existing ← fetchNodeController node.name
  ensureOwned r "node" node.name existing
    (call (.createNode { node with controller := some r.obj.uid }))

def ensureReshardShard (r : Copy Reshard) (shard : Shard) : Ctl Unit := do
  let existing ← fetchShard shard.name
  ensureOwned r "shard" shard.name (existing.map (·.obj.controller))
    (call (.createShard { shard with controller := some r.obj.uid }))

def ensureAll {α : Type} (ensure : α → Ctl Unit) : List α → Ctl Unit
  | [] => .ret ()
  | a :: rest => do
    ensure a
    ensureAll ensure rest

def validateColocation (r : Copy Reshard) (colocateWith external : String) : Ctl Unit := do
  match ← fetchCluster colocateWith with
  | none =>
    .exit (.returned (setReshardCondition r .targetsProvisioned false "ColocationTargetMissing"
      ("colocation target cluster " ++ quoted colocateWith ++ " not found")))
  | some host =>
    match ← fetchNode external with
    | none =>
      .exit (.returned (setReshardCondition r .targetsProvisioned false "ColocationNodeMissing"
        ("colocation node " ++ quoted external ++ " not found yet")))
    | some node =>
      if node.controller ≠ some host.uid then
        .exit (.returned (setReshardCondition r .targetsProvisioned false "ColocationNodeForeign"
          ("colocation node " ++ quoted external ++ " is not controlled by cluster " ++ quoted colocateWith)))
      else .ret ()

def clusterReplacedMessage (cluster : Cluster) : String :=
  "cluster " ++ quoted cluster.name ++ " is not the object this reshard was validated against"

def createTargets (r : Copy Reshard) (cluster : Cluster) (placement : Placement) : Ctl Unit := do
  (if placement.external ≠ "" then validateColocation r (placementOf cluster).2 placement.external else .ret ())
  (if (placementOf cluster).1 ≠ .shared then ensureAll (ensureReshardNode r) placement.owned else .ret ())
  ensureAll (ensureReshardShard r) (r.obj.spec.targetRanges.map (targetShardFor cluster placement))

def reconcileProvisioningTargets (r : Copy Reshard) : Ctl (Copy Reshard) := do
  match ← fetchCluster r.obj.spec.clusterRef with
  | none =>
    .ret (setReshardCondition r .targetsProvisioned false "ClusterNotFound"
      ("cluster " ++ quoted r.obj.spec.clusterRef ++ " not found yet"))
  | some cluster =>
    if r.obj.status.clusterUID ≠ cluster.uid then
      .ret (fail r .targetsProvisioned "ClusterReplaced" (clusterReplacedMessage cluster))
    else
      match cluster.rendered with
      | .error _ => .exit .failed
      | .ok () =>
        let names := targetNames cluster.name r.obj.spec
        match names.find? (·.utf8ByteSize > maxDatabaseNameBytes) with
        | some name =>
          .ret (fail r .targetsProvisioned "InvalidTargetName" ("target shard database name " ++ quoted name ++
            " exceeds " ++ toString maxDatabaseNameBytes ++ " bytes"))
        | none =>
          match desiredPlacement cluster names with
          | .error e => .ret (fail r .targetsProvisioned "PlacementFailed" e)
          | .ok placement =>
            createTargets r cluster placement
            .ret (setReshardCondition
              (modifyStatus r fun s => { s with targetShards := names, phase := .seeding })
              .targetsProvisioned true "TargetsProvisioned" "target shards created (non-serving)")

end PgShard.Operator
