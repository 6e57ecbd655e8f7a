import PgShard.Lib.Versioned
import PgShard.Operator.Range

/-! The API objects the operator's controllers read and write. -/

namespace PgShard.Operator

open Versioned Quote

inductive ReshardPhase
  | unset
  | pending
  | validating
  | provisioningTargets
  | seeding
  | catchingUp
  | readyToCutover
  | cuttingOver
  | switchedForward
  | finalizing
  | completed
  | rollingBack
  | failed
  deriving DecidableEq

inductive ConditionKind
  | validated
  | targetsProvisioned
  | seeded
  | cutOver
  deriving DecidableEq

structure Condition where
  kind : ConditionKind
  status : Bool
  reason : String
  message : String
  deriving DecidableEq

structure SeedTable where
  schema : String
  name : String
  shardKeyColumn : String
  shardKeyType : String
  deriving DecidableEq

structure ReshardSpec where
  clusterRef : String
  sourceShard : String
  targetRanges : List KeyBounds
  deriving DecidableEq

/-- Times are seconds. A UID that was never recorded is the empty text. -/
structure ReshardStatus where
  phase : ReshardPhase := .unset
  conditions : List Condition := []
  targetShards : List String := []
  sourceShardUID : String := ""
  clusterUID : String := ""
  seedTables : List SeedTable := []
  seedTablesPinned : Bool := false
  cutoverGateDeadline : Option Nat := none
  cutoverGateObservedAt : Option Nat := none
  sourceFenced : Bool := false
  cutoverAttempt : Nat := 0
  cutoverFrozenLSN : Nat := 0
  switchCommitted : Bool := false
  deriving DecidableEq

structure Reshard where
  name : String
  uid : String
  deleting : Bool := false
  finalizers : List String := []
  spec : ReshardSpec
  status : ReshardStatus := {}
  deriving DecidableEq

def cutoverClaimFinalizer : String := "pgshard.dev/cutover-cleanup"

def routingGateFinalizer : String := "pgshard.dev/routing-gate"

def Reshard.addFinalizer (r : Reshard) (f : String) : Reshard :=
  { r with finalizers := r.finalizers ++ [f] }

def Reshard.removeFinalizer (r : Reshard) (f : String) : Reshard :=
  { r with finalizers := r.finalizers.filter (· != f) }

inductive ShardRole
  | data
  | system
  deriving DecidableEq

inductive InstanceRole
  | primary
  | replica
  | unset
  deriving DecidableEq

structure InstanceState where
  pod : String
  role : InstanceRole
  ready : Bool
  deriving DecidableEq

/-- `claim` is the cutover-claim annotation, empty when it is absent, and
`controller` the UID of the controlling owner. -/
structure Shard where
  name : String
  uid : String := ""
  controller : Option String := none
  claim : String := ""
  clusterRef : String
  keyRange : KeyBounds
  nodeRef : String := ""
  role : ShardRole := .data
  serving : Bool := false
  databaseReady : Bool := false
  databaseNode : String := ""
  databaseNodeUID : String := ""
  databasePodUID : String := ""
  currentPrimary : String := ""
  instances : List InstanceState := []
  deriving DecidableEq

inductive PlacementMode
  | dedicatedInstance
  | dedicatedMachine
  | shared
  deriving DecidableEq

/-- `rendered` is what `pgconfig.Render` answers for the cluster's configuration. -/
structure Cluster where
  name : String
  uid : String
  hashFunction : String := "xxhash64_v1"
  placement : Option (Option PlacementMode × String) := none
  routerWriteLeaseSeconds : Option Nat := none
  rendered : Except String Unit := .ok ()

structure Node where
  name : String
  uid : String := ""
  controller : Option String := none
  ready : Bool := false
  currentPrimary : String := ""
  instances : List InstanceState := []
  deriving DecidableEq

structure Pod where
  name : String
  uid : String
  controller : Option String
  podIP : String
  deriving DecidableEq

inductive TableType
  | sharded
  | global
  deriving DecidableEq

structure TableEntry where
  schema : String
  name : String
  type : TableType
  shardKeyColumn : String := ""
  shardKeyType : String := ""
  sequences : List (String × String) := []
  deriving DecidableEq

structure TableConfig where
  name : String
  clusterRef : String
  tables : List TableEntry
  deriving DecidableEq

inductive RoutingShardState
  | serving
  | buffered
  | readOnly
  | draining
  | hidden
  deriving DecidableEq

structure RoutingEndpoint where
  pod : String
  host : String
  port : Nat
  canRead : Bool := false
  deriving DecidableEq

structure RoutingShard where
  name : String
  keyRange : KeyBounds
  state : RoutingShardState
  primary : Option RoutingEndpoint := none
  replicas : List RoutingEndpoint := []
  deriving DecidableEq

inductive GateMode
  | bufferWrites
  | bufferAll
  deriving DecidableEq

structure GateMatch where
  all : Bool := false
  tables : List String := []
  keyRanges : List KeyBounds := []
  deriving DecidableEq

structure RoutingGate where
  id : String
  «match» : GateMatch
  mode : GateMode := .bufferWrites
  deadline : Nat
  minTopologyGeneration : Nat := 0
  deriving DecidableEq

/-- The compiled view routers follow. Tables keep the schema they default to. -/
structure RoutingSpec where
  epoch : Nat := 0
  topologyGeneration : Nat := 0
  writeLeaseSeconds : Nat
  hashFunction : String
  shards : List RoutingShard := []
  tables : List TableEntry := []
  gates : List RoutingGate := []
  sequenceEndpoint : Option RoutingEndpoint := none
  deriving DecidableEq

/-- `apimeta.SetStatusCondition`: one condition of each kind, new ones last. -/
def setCondition (conditions : List Condition) (new : Condition) : List Condition :=
  if conditions.any (·.kind == new.kind) then conditions.map fun c => if c.kind = new.kind then new else c
  else conditions ++ [new]

def modifyStatus (r : Copy Reshard) (f : ReshardStatus → ReshardStatus) : Copy Reshard :=
  { r with obj := { r.obj with status := f r.obj.status } }

def setReshardCondition (r : Copy Reshard) (kind : ConditionKind) (status : Bool) (reason message : String) :
    Copy Reshard :=
  modifyStatus r fun s => { s with conditions := setCondition s.conditions ⟨kind, status, reason, message⟩ }

/-- Moves the reshard to the terminal Failed phase, with the reason on the
condition that owns the current phase. -/
def fail (r : Copy Reshard) (kind : ConditionKind) (reason message : String) : Copy Reshard :=
  setReshardCondition (modifyStatus r fun s => { s with phase := .failed }) kind false reason message

def hold (r : Copy Reshard) (reason message : String) : Copy Reshard :=
  setReshardCondition r .seeded false reason message

def holdCutover (r : Copy Reshard) (reason message : String) : Copy Reshard :=
  setReshardCondition r .cutOver false reason message

def shardName (cluster start stop : String) : String :=
  cluster ++ "-" ++ (if start = "" then "min" else start) ++ "-" ++ (if stop = "" then "max" else stop)

def targetNames (cluster : String) (spec : ReshardSpec) : List String :=
  spec.targetRanges.map fun tr => shardName cluster tr.start tr.stop

def shardDatabaseName (shard : Shard) : String :=
  shard.name

def maxDatabaseNameBytes : Nat := 63

def databaseVerified (shard : Shard) (node : Node) (pod : Pod) : Bool :=
  shard.databaseReady && shard.databaseNode == node.name && shard.databaseNodeUID == node.uid &&
    shard.databasePodUID == pod.uid

def foreignTarget (reshard : Reshard) (target : Shard) (i : Nat) : Option (String × String) :=
  if target.controller ≠ some reshard.uid ∨ target.clusterRef ≠ reshard.spec.clusterRef ∨
      some target.keyRange ≠ reshard.spec.targetRanges[i]? ∨ target.serving ∨ target.role = .system then
    some ("TargetForeign",
      "target shard " ++ quoted target.name ++ " is not the hidden data target this reshard provisioned")
  else none

end PgShard.Operator
