import PgShard.Operator.Targets

/-! Seeding and catching up: one identity-checked pass that prepares the source,
keeps a workflow per target running and measures their lag. -/

namespace PgShard.Operator

open Versioned Effects Quote

def seedIdentChar (c : Char) : Bool :=
  ('a' ≤ c ∧ c ≤ 'z') ∨ ('A' ≤ c ∧ c ≤ 'Z') ∨ ('0' ≤ c ∧ c ≤ '9') ∨ c = '_'

def seedIdent (name : String) : String :=
  String.ofList (name.toList.map fun c => if seedIdentChar c then c else '_')

def seedSuffixReserve : Nat := 5

/-- The full UID and as much of the name as fits PostgreSQL's identifier limit. -/
def seedPublication (reshard : Reshard) : String :=
  let uid := seedIdent reshard.uid
  let maxName := maxDatabaseNameBytes - 8 - 1 - uid.utf8ByteSize - seedSuffixReserve
  "pgshard_" ++ String.ofList ((seedIdent reshard.name).toList.take maxName) ++ "_" ++ uid

def seedWorkflowID (reshard : Reshard) (index : Nat) : String :=
  seedPublication reshard ++ "_t" ++ toString index

@[irreducible] def publicationFits (reshard : Reshard) : Bool :=
  (seedPublication reshard).utf8ByteSize + seedSuffixReserve ≤ maxDatabaseNameBytes

def defaultSchema : String := "public"

def tableKey (t : TableEntry) : List String :=
  [t.schema, t.name, t.shardKeyColumn, t.shardKeyType]

def shardedTables (configs : List TableConfig) (clusterName : String) : List TableEntry :=
  let tables := (configs.filter (·.clusterRef == clusterName)).flatMap fun cfg =>
    (cfg.tables.filter (·.type == .sharded)).map fun t =>
      { t with schema := if t.schema = "" then defaultSchema else t.schema }
  tables.insertionSort fun a b => tableKey a ≤ tableKey b

def pinTables (tables : List TableEntry) : List SeedTable :=
  tables.map fun t => ⟨t.schema, t.name, t.shardKeyColumn, t.shardKeyType⟩

def tablesDiffer (pinned : List SeedTable) (live : List TableEntry) : Option String :=
  if pinned.length ≠ live.length then
    some ("the cluster now has " ++ toString live.length ++ " sharded tables; " ++ toString pinned.length ++
      " were pinned when seeding began")
  else
    ((pinned.zip (pinTables live)).find? fun (p, l) => p != l).map fun (p, _) =>
      "sharded table " ++ p.schema ++ "." ++ p.name ++ " changed since seeding began"

inductive SeedPassMode
  | seeding
  | catchingUp
  deriving DecidableEq

def catchupMaxLagBytes : Nat := 16 * 2 ^ 20

def sourceLost (reshard : Reshard) (source : Shard) : Option (String × String) :=
  if reshard.status.sourceShardUID = "" ∨ reshard.status.sourceShardUID ≠ source.uid then
    some ("SourceReplaced",
      "source shard " ++ quoted source.name ++ " is not the object this reshard was validated against")
  else if ¬ source.serving then
    some ("SourceNotServing",
      "source shard " ++ quoted source.name ++ " is no longer serving; its data is not authoritative")
  else if source.role = .system then
    some ("SourceNotReshardable", "source shard " ++ quoted source.name ++ " became the system shard")
  else none

def resolveSource (r : Copy Reshard) : Ctl (Copy Shard) := do
  match ← fetchShard r.obj.spec.sourceShard with
  | none =>
    .exit (.returned (hold r "SourceShardMissing"
      ("source shard " ++ quoted r.obj.spec.sourceShard ++ " not found")))
  | some source =>
    match sourceLost r.obj source.obj with
    | some (reason, message) => .exit (.returned (fail r .seeded reason message))
    | none => .ret source

def checkTargets (r : Copy Reshard) : Nat → List String → Ctl Unit
  | _, [] => .ret ()
  | i, name :: rest => do
    match ← fetchShard name with
    | none =>
      .exit (.returned (hold r "TargetShardMissing" ("target shard " ++ quoted name ++ " not found")))
    | some target =>
      match foreignTarget r.obj target.obj i with
      | some (reason, message) => .exit (.returned (fail r .seeded reason message))
      | none => checkTargets r (i + 1) rest

def advanceNothingToSeed (r : Copy Reshard) (mode : SeedPassMode) : Ctl (Copy Reshard) := do
  checkTargets r 0 r.obj.status.targetShards
  let ready := setReshardCondition r .seeded true "NothingToSeed" "the cluster has no sharded tables"
  .ret (modifyStatus ready fun s =>
    { s with phase := if mode = .seeding then .catchingUp else .readyToCutover })

structure SeedInputs where
  cluster : Cluster
  source : Shard
  sourcePod : Pod

/-- The error cases of `StartWorkflow`. A conflicting worker is told to stop. -/
def workflowRefused (r : Copy Reshard) (host id : String) (e : RpcError) : Ctl Unit := do
  match e.code with
  | .invalidArgument => .exit (.returned (fail r .seeded "WorkflowRejected" e.message))
  | .unimplemented => .exit (.returned (hold r "RunnerNotConfigured" e.message))
  | .failedPrecondition =>
    match ← call (.stopWorkflow host id) with
    | .error stopped =>
      .exit (.returned (hold r "WorkflowConflict"
        (e.message ++ " (stopping the stale worker also failed: " ++ stopped.message ++ ")")))
    | .ok () => .exit (.returned (hold r "WorkflowConflict" e.message))
  | .other => .exit (.returned (hold r "WorkflowStartFailed" e.message))

/-- What a workflow's status says of a target: `some` with the applied position
once it streams. -/
def streamingAck (r : Copy Reshard) (id : String) (status : WorkflowStatus) : Ctl (Option (Option Nat)) :=
  match status.phase with
  | .streaming => .ret (some status.appliedLsn)
  | .error => .exit (.returned (hold r "WorkflowFailed" ("workflow " ++ id ++ ": " ++ status.error)))
  | .copying => .ret none

def startTarget (r : Copy Reshard) (seed : SeedInputs) (i : Nat) (target : Shard) (pod : Pod)
    (range : KeyRange) : Ctl (Option (Option Nat)) := do
  let id := seedWorkflowID r.obj i
  agentClient pod.podIP
  match ← call (.startWorkflow {
      host := pod.podIP
      targetPodUid := pod.uid
      id
      sourceShard := seed.source.name
      sourceHost := seed.sourcePod.podIP
      sourceDatabase := shardDatabaseName seed.source
      publication := seedPublication r.obj
      tables := r.obj.status.seedTables
      range
      hashFunction := seed.cluster.hashFunction
      targetDatabase := shardDatabaseName target
      expectProvenance := target.uid }) with
  | .error e => do
    workflowRefused r pod.podIP id e
    .ret none
  | .ok () =>
    match ← workflowStatus pod.podIP id with
    | .error e => .exit (.returned (hold r "WorkflowStatusUnavailable" e))
    | .ok status =>
      match ← stillPrimary target pod with
      | false =>
        .exit (.returned (hold r "TargetUnready"
          ("target shard " ++ quoted target.name ++ " primary changed during the status read")))
      | true => streamingAck r id status

def seedTarget (r : Copy Reshard) (seed : SeedInputs) (i : Nat) (targetName : String) :
    Ctl (Option (Option Nat)) := do
  match ← fetchShard targetName with
  | none =>
    .exit (.returned (hold r "TargetShardMissing" ("target shard " ++ quoted targetName ++ " not found")))
  | some target =>
    match foreignTarget r.obj target.obj i with
    | some (reason, message) => .exit (.returned (fail r .seeded reason message))
    | none =>
      if ¬ target.obj.databaseReady then
        .exit (.returned (hold r "TargetUnverified"
          ("target shard " ++ quoted targetName ++ " has no verified database yet")))
      else
        match ← verifiedPrimary target.obj with
        | none =>
          .exit (.returned (hold r "TargetUnready" ("target shard " ++ quoted targetName ++
            " primary does not match its verified database placement")))
        | some pod =>
          match toRange target.obj.keyRange with
          | .error e => .exit (.returned (fail r .seeded "InvalidTargetRange" e))
          | .ok range => startTarget r seed i target.obj pod range

def seedTargets (r : Copy Reshard) (seed : SeedInputs) : Nat → List String → Ctl (List (Option Nat))
  | _, [] => .ret []
  | i, name :: rest => do
    match ← seedTarget r seed i name with
    | none => seedTargets r seed (i + 1) rest
    | some applied => do
      let others ← seedTargets r seed (i + 1) rest
      .ret (applied :: others)

def slowestApplied (writeLsn : Nat) : List (Option Nat) → Option Nat → Except String Nat
  | [], lowest => .ok (lowest.getD 0)
  | none :: _, _ => .error "a target workflow reports no applied position yet"
  | some a :: rest, lowest =>
    if a > writeLsn then
      .error ("applied position " ++ hex a ++ " is ahead of the source write position " ++ hex writeLsn)
    else
      slowestApplied writeLsn rest (match lowest with
        | none => some a
        | some l => some (if a < l then a else l))

def measureLag (r : Copy Reshard) (writeLsn : Nat) (applied : List (Option Nat)) : Copy Reshard :=
  match slowestApplied writeLsn applied none with
  | .error e => hold r "LagUnmeasurable" e
  | .ok lowest =>
    if writeLsn - lowest > catchupMaxLagBytes then
      hold r "Lagging" ("slowest target is " ++ toString (writeLsn - lowest) ++
        " bytes behind the source (bound " ++ toString catchupMaxLagBytes ++ ")")
    else
      modifyStatus
        (setReshardCondition r .seeded true "CaughtUp" ("every target workflow is streaming within " ++
          toString catchupMaxLagBytes ++ " bytes of the source"))
        fun s => { s with phase := .readyToCutover }

def sourceStatus (pod : Pod) : Ctl (Except String InstanceStatus) := do
  match ← call (.dial pod.podIP) with
  | false => .ret (.error "no agent connection")
  | true =>
    match ← call (.getStatus pod.podIP) with
    | .error e => .ret (.error e.message)
    | .ok none => .ret (.error "source agent returned an empty status")
    | .ok (some status) => .ret (.ok status)

/-- Advances to ReadyToCutover once the slowest workflow is within the lag bound
of the source's current write position. -/
def gateCatchup (r : Copy Reshard) (source : Shard) (sourcePod : Pod) (applied : List (Option Nat)) :
    Ctl (Copy Reshard) := do
  match ← sourceStatus sourcePod with
  | .error e => .ret (hold r "SourceStatusUnavailable" e)
  | .ok status =>
    if ¬ status.primary ∨ ¬ status.ready ∨ status.fenced then
      .ret (hold r "SourceStatusUnavailable"
        ("source pod " ++ sourcePod.name ++ " is not a ready unfenced primary"))
    else
      match ← stillPrimary source sourcePod with
      | false =>
        .ret (hold r "SourceStatusUnavailable" ("source pod " ++ sourcePod.name ++
          " stopped being the verified primary during the status read"))
      | true =>
        match status.walWriteLsn with
        | none => .ret (hold r "LagUnmeasurable" "the source reports no WAL write position")
        | some writeLsn => .ret (measureLag r writeLsn applied)

def runWorkflows (r : Copy Reshard) (mode : SeedPassMode) (cluster : Cluster) (source : Shard) :
    Ctl (Copy Reshard) := do
  match ← primaryEndpoint source.nodeRef with
  | none =>
    .ret (hold r "SourceUnready" ("source shard " ++ quoted source.name ++ " has no verified primary pod yet"))
  | some (pod, node) =>
    if ¬ databaseVerified source node pod then
      .ret (hold r "SourceUnverified"
        ("source shard " ++ quoted source.name ++ " database is not verified on its current primary"))
    else do
      agentClient pod.podIP
      match ← call (.prepareSource {
          host := pod.podIP
          database := shardDatabaseName source
          targetPodUid := pod.uid
          publication := seedPublication r.obj
          tables := r.obj.status.seedTables.map fun t => (t.schema, t.name) }) with
      | .error e =>
        match e.code with
        | .invalidArgument => .ret (fail r .seeded "PrepareSourceRejected" e.message)
        | _ => .ret (hold r "PrepareSourceFailed" e.message)
      | .ok () =>
        let applied ← seedTargets r ⟨cluster, source, pod⟩ 0 r.obj.status.targetShards
        if applied.length < r.obj.status.targetShards.length then
          .ret (hold r "Copying" (toString applied.length ++ "/" ++
            toString r.obj.status.targetShards.length ++ " target workflows streaming"))
        else if mode = .seeding then
          .ret (modifyStatus
            (setReshardCondition r .seeded true "Streaming" "every target workflow is streaming")
            fun s => { s with phase := .catchingUp })
        else gateCatchup r source pod applied

def listText (names : List String) : String :=
  "[" ++ " ".intercalate names ++ "]"

def seedSchema (r : Copy Reshard) (mode : SeedPassMode) (cluster : Cluster) (source : Shard) :
    Ctl (Copy Reshard) := do
  match ← call .listTableConfigs with
  | .found configs =>
    let live := shardedTables configs cluster.name
    if ¬ r.obj.status.seedTablesPinned then
      if mode ≠ .seeding then
        .ret (fail r .seeded "SchemaUnpinned" "no pinned seed schema; the reshard cannot resume safely")
      else
        .ret (setReshardCondition
          (modifyStatus r fun s => { s with seedTables := pinTables live, seedTablesPinned := true })
          .seeded false "SchemaPinned"
          ("pinned " ++ toString live.length ++ " sharded tables; starting workflows"))
    else
      match tablesDiffer r.obj.status.seedTables live with
      | some drift => .ret (hold r "SchemaDrift" drift)
      | none =>
        if r.obj.status.seedTables = [] then advanceNothingToSeed r mode
        else runWorkflows r mode cluster source
  | _ => .exit .failed

def runSeedPass (r : Copy Reshard) (mode : SeedPassMode) : Ctl (Copy Reshard) := do
  match ← fetchCluster r.obj.spec.clusterRef with
  | none => .ret (hold r "ClusterNotFound" ("cluster " ++ quoted r.obj.spec.clusterRef ++ " not found"))
  | some cluster =>
    if r.obj.status.clusterUID = "" ∨ r.obj.status.clusterUID ≠ cluster.uid then
      .ret (fail r .seeded "ClusterReplaced" (clusterReplacedMessage cluster))
    else if ¬ publicationFits r.obj then
      .ret (fail r .seeded "InvalidPublicationName" ("publication name " ++ quoted (seedPublication r.obj) ++
        " leaves no room for target slot suffixes within " ++ toString maxDatabaseNameBytes ++ " bytes"))
    else do
      let source ← resolveSource r
      let expected := targetNames cluster.name r.obj.spec
      if r.obj.status.targetShards ≠ expected then
        .ret (fail r .seeded "TargetListMismatch" ("status.targetShards " ++
          listText r.obj.status.targetShards ++ " does not match the spec-derived targets " ++ listText expected))
      else seedSchema r mode cluster source.obj

def reconcileSeeding (r : Copy Reshard) : Ctl (Copy Reshard) :=
  runSeedPass r .seeding

def reconcileCatchingUp (r : Copy Reshard) : Ctl (Copy Reshard) :=
  runSeedPass r .catchingUp

end PgShard.Operator
