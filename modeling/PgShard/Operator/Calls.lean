import PgShard.Lib.Effects
import PgShard.Operator.Objects

/-! The calls the reshard controller makes: reads and writes of the API server,
the clock, and the RPCs of the agents. -/

namespace PgShard.Operator

open Versioned Effects Quote

inductive Got (α : Type)
  | found (a : α)
  | notFound
  | failed

inductive Wrote
  | stored (version : Nat)
  | conflict
  | failed

inductive Created
  | created
  | alreadyExists
  | failed

inductive RpcCode
  | invalidArgument
  | failedPrecondition
  | unimplemented
  | other
  deriving DecidableEq

structure RpcError where
  code : RpcCode
  message : String
  deriving DecidableEq

structure FenceRequest where
  host : String
  database : String
  targetPodUid : String
  unfence : Bool

structure JournalId where
  uid : String
  attempt : Nat
  deriving DecidableEq

structure JournalRequest where
  host : String
  database : String
  targetPodUid : String
  id : JournalId
  sourceShard : String
  successors : List (String × KeyRange)

structure PrepareRequest where
  host : String
  database : String
  targetPodUid : String
  publication : String
  tables : List (String × String)

structure WorkflowRequest where
  host : String
  targetPodUid : String
  id : String
  sourceShard : String
  sourceHost : String
  sourceDatabase : String
  publication : String
  tables : List SeedTable
  range : KeyRange
  hashFunction : String
  targetDatabase : String
  expectProvenance : String

inductive WorkflowPhase
  | copying
  | streaming
  | error
  deriving DecidableEq

structure WorkflowStatus where
  id : String
  phase : WorkflowPhase
  appliedLsn : Option Nat := none
  journalLsn : Option Nat := none
  error : String := ""

structure InstanceStatus where
  primary : Bool
  ready : Bool
  fenced : Bool
  walWriteLsn : Option Nat

/-- Reads without `Live` go through the informer cache. `getNodeController` is the
read of a node of which only the controlling owner is looked at. -/
inductive Op
  | getReshard (name : String)
  | getReshardLive (name : String)
  | updateStatus (r : Copy Reshard)
  | updateReshard (r : Copy Reshard)
  | getShard (name : String)
  | getShardLive (name : String)
  | updateShard (s : Copy Shard)
  | createShard (s : Shard)
  | getCluster (name : String)
  | getNode (name : String)
  | getNodeController (name : String)
  | createNode (node : Node)
  | ensureConfigMap (name owner : String)
  | getPod (name : String)
  | getRouting (name : String)
  | listTableConfigs
  | now
  | dial (host : String)
  | fenceWrites (request : FenceRequest)
  | emitJournal (request : JournalRequest)
  | prepareSource (request : PrepareRequest)
  | startWorkflow (request : WorkflowRequest)
  | stopWorkflow (host id : String)
  | watchWorkflows (host id : String)
  | getStatus (host : String)

/-- What a call answers. A `Bool` says whether the call succeeded. -/
def Ans : Op → Type
  | .getReshard _ => Got (Copy Reshard)
  | .getReshardLive _ => Got (Copy Reshard)
  | .updateStatus _ => Wrote
  | .updateReshard _ => Wrote
  | .getShard _ => Got (Copy Shard)
  | .getShardLive _ => Got (Copy Shard)
  | .updateShard _ => Wrote
  | .createShard _ => Created
  | .getCluster _ => Got Cluster
  | .getNode _ => Got Node
  | .getNodeController _ => Got (Option String)
  | .createNode _ => Created
  | .ensureConfigMap _ _ => Bool
  | .getPod _ => Got Pod
  | .getRouting _ => Got RoutingSpec
  | .listTableConfigs => Got (List TableConfig)
  | .now => Nat
  | .dial _ => Bool
  | .fenceWrites _ => Except RpcError Unit
  | .emitJournal _ => Except RpcError Nat
  | .prepareSource _ => Except RpcError Unit
  | .startWorkflow _ => Except RpcError Unit
  | .stopWorkflow _ _ => Except RpcError Unit
  | .watchWorkflows _ _ => Except RpcError WorkflowStatus
  | .getStatus _ => Except RpcError (Option InstanceStatus)

/-- How a part of a reconcile ends it early: with an error, or by returning with
the reshard in memory as it then is. -/
inductive Stop
  | failed
  | returned (r : Copy Reshard)

abbrev Ctl := Prog Ans Stop

def call (o : Op) : Ctl (Ans o) :=
  Prog.perform o

def timeNow : Ctl Nat :=
  call .now

/-- A missing object is the caller's to handle; any other error ends the reconcile. -/
def orFail {α : Type} : Got α → Ctl (Option α)
  | .found a => .ret (some a)
  | .notFound => .ret none
  | .failed => .exit .failed

def fetchShard (name : String) : Ctl (Option (Copy Shard)) := do
  orFail (← call (.getShard name))

def fetchCluster (name : String) : Ctl (Option Cluster) := do
  orFail (← call (.getCluster name))

def fetchNode (name : String) : Ctl (Option Node) := do
  orFail (← call (.getNode name))

def fetchNodeController (name : String) : Ctl (Option (Option String)) := do
  orFail (← call (.getNodeController name))

def fetchPod (name : String) : Ctl (Option Pod) := do
  orFail (← call (.getPod name))

def fetchRouting (name : String) : Ctl (Option RoutingSpec) := do
  orFail (← call (.getRouting name))

def updateStatus (r : Copy Reshard) : Ctl (Copy Reshard) := do
  match ← call (.updateStatus r) with
  | .stored version => .ret { r with version }
  | .conflict => .exit .failed
  | .failed => .exit .failed

/-- `r.Update` of a reshard writes its metadata, not its status. -/
def updateReshard (r : Copy Reshard) : Ctl (Copy Reshard) := do
  match ← call (.updateReshard r) with
  | .stored version => .ret { r with version }
  | .conflict => .exit .failed
  | .failed => .exit .failed

def updateShard (s : Copy Shard) : Ctl (Copy Shard) := do
  match ← call (.updateShard s) with
  | .stored version => .ret { s with version }
  | .conflict => .exit .failed
  | .failed => .exit .failed

def agentClient (host : String) : Ctl Unit := do
  match ← call (.dial host) with
  | true => .ret ()
  | false => .exit .failed

def primaryEndpoint (nodeRef : String) : Ctl (Option (Pod × Node)) := do
  if nodeRef = "" then .ret none
  else
    match ← fetchNode nodeRef with
    | none => .ret none
    | some node =>
      if ¬ node.ready ∨ node.currentPrimary = "" then .ret none
      else
        match ← fetchPod node.currentPrimary with
        | none => .ret none
        | some pod =>
          if pod.controller ≠ some node.uid ∨ pod.podIP = "" then .ret none
          else .ret (some (pod, node))

def verifiedPrimary (shard : Shard) : Ctl (Option Pod) := do
  match ← primaryEndpoint shard.nodeRef with
  | none => .ret none
  | some (pod, node) => .ret (if databaseVerified shard node pod then some pod else none)

def stillPrimary (shard : Shard) (pod : Pod) : Ctl Bool := do
  match ← verifiedPrimary shard with
  | none => .ret false
  | some confirmed => .ret (confirmed.uid == pod.uid)

def workflowStatus (host id : String) : Ctl (Except String WorkflowStatus) := do
  match ← call (.watchWorkflows host id) with
  | .error e => .ret (.error e.message)
  | .ok status =>
    if status.id ≠ id then
      .ret (.error ("workflow " ++ id ++ " status stream answered for " ++ quoted status.id))
    else .ret (.ok status)

end PgShard.Operator
