import PgShard.Operator.Seeding

/-! The cutover: gate, quiesce, freeze, barrier and switch, with the rollback,
failure and deletion paths that give it up. -/

namespace PgShard.Operator

open Versioned Effects Quote

def cutoverGateWindow : Nat := 120

def quiesceMargin : Nat := 5

/-- The source for a cleanup path, or nothing if it cannot be read or was replaced. -/
def sourceForCleanup (r : Copy Reshard) : Ctl (Option (Copy Shard)) := do
  match ← call (.getShard r.obj.spec.sourceShard) with
  | .found source =>
    if r.obj.status.sourceShardUID ≠ "" ∧ r.obj.status.sourceShardUID ≠ source.obj.uid then .ret none
    else .ret (some source)
  | _ => .ret none

def releaseSourceClaim (r : Copy Reshard) (source : Copy Shard) : Ctl Unit := do
  if source.obj.claim ≠ r.obj.name then .ret ()
  else do
    let _ ← updateShard { source with obj := { source.obj with claim := "" } }
    .ret ()

/-- The RPC part of `unfenceSource`, on the source's verified primary. -/
def liftFence (r : Copy Reshard) (source : Shard) : Ctl Unit := do
  match ← verifiedPrimary source with
  | none =>
    .exit (.returned (holdCutover r "SourceUnverified" "cannot un-fence the source: no verified primary"))
  | some pod => do
    agentClient pod.podIP
    match ← call (.fenceWrites ⟨pod.podIP, shardDatabaseName source, pod.uid, true⟩) with
    | .error e => .exit (.returned (holdCutover r "UnfenceFailed" e.message))
    | .ok () =>
      match ← stillPrimary source pod with
      | false =>
        .exit (.returned (holdCutover r "SourceUnverified"
          "the source primary changed during the un-fence; retrying"))
      | true => .ret ()

/-- Restores the source read-write. Only the live claim authorises it, and only
while the live reshard is the same object and has not committed. -/
def unfenceSource (r : Copy Reshard) (source : Shard) : Ctl Unit := do
  match ← call (.getShardLive source.name) with
  | .found live =>
    if live.obj.claim ≠ r.obj.name then .ret ()
    else
      match ← call (.getReshardLive r.obj.name) with
      | .found liveReshard =>
        if liveReshard.obj.uid ≠ r.obj.uid ∨ liveReshard.obj.status.switchCommitted then .exit (.returned r)
        else liftFence r source
      | _ => .exit .failed
  | _ => .exit .failed

/-- Un-fences if a fence is owed and records that, as the failure and the
deletion path both do. -/
def settleFence (r : Copy Reshard) (source : Shard) : Ctl (Copy Reshard) := do
  if r.obj.status.sourceFenced then do
    unfenceSource r source
    updateStatus (modifyStatus r fun s => { s with sourceFenced := false })
  else .ret r

/-- Marks the reshard Failed. An uncommitted failure un-fences the source and
releases the claim first; a committed one does neither. -/
def failCutover (r : Copy Reshard) (source : Option (Copy Shard)) (reason message : String) :
    Ctl (Copy Reshard) := do
  match source with
  | none => .ret (fail r .cutOver reason message)
  | some source =>
    if r.obj.status.switchCommitted then .ret (fail r .cutOver reason message)
    else do
      let settled ← settleFence r source.obj
      releaseSourceClaim settled source
      .ret (fail settled .cutOver reason message)

/-- Takes or confirms the exclusive claim on the source. A reshard that takes it
first pins itself with the cleanup finalizer. -/
def claimSource (r : Copy Reshard) (source : Copy Shard) : Ctl Unit := do
  if source.obj.claim = r.obj.name then .ret ()
  else if source.obj.claim ≠ "" then
    .exit (.returned (holdCutover r "SourceClaimed" ("source shard " ++ quoted source.obj.name ++
      " is being cut over by reshard " ++ quoted source.obj.claim)))
  else if cutoverClaimFinalizer ∉ r.obj.finalizers then do
    let pinned ← updateReshard { r with obj := r.obj.addFinalizer cutoverClaimFinalizer }
    .exit (.returned pinned)
  else
    match ← call (.updateShard { source with obj := { source.obj with claim := r.obj.name } }) with
    | .stored _ => .ret ()
    | .conflict => .exit (.returned r)
    | .failed => .exit .failed

def reconcileReadyToCutover (r : Copy Reshard) : Ctl (Copy Reshard) := do
  let source ← resolveSource r
  claimSource r source
  let now ← timeNow
  .ret (setReshardCondition
    (modifyStatus r fun s => { s with
      cutoverGateDeadline := some (now + cutoverGateWindow)
      phase := .cuttingOver })
    .cutOver false "Gating" "cutover gate requested; waiting for routers to quiesce")

/-- Returns an uncommitted cutover to CatchingUp under a fresh attempt. The claim
is kept. -/
def rollBackCutover (r : Copy Reshard) (source : Shard) (message : String) : Ctl (Copy Reshard) := do
  (if r.obj.status.sourceFenced ∧ ¬ r.obj.status.switchCommitted then unfenceSource r source else .ret ())
  .ret (setReshardCondition
    (modifyStatus r fun s => { s with
      sourceFenced := if s.switchCommitted then s.sourceFenced else false
      cutoverGateDeadline := none
      cutoverGateObservedAt := none
      cutoverFrozenLSN := 0
      cutoverAttempt := s.cutoverAttempt + 1
      phase := .catchingUp })
    .cutOver false "RolledBack" message)

def deadlineExpired (r : Copy Reshard) : Ctl Bool := do
  match r.obj.status.cutoverGateDeadline with
  | none => .ret false
  | some deadline => do
    let now ← timeNow
    .ret (decide (deadline < now))

def gateID (name : String) : String :=
  "reshard-" ++ name

def gatePublished (routing : RoutingSpec) (name : String) : Bool :=
  routing.gates.any (·.id == gateID name)

/-- When no router holding a lease of the given length accepts writes any more. -/
def quiesceAt (observedAt writeLeaseSeconds : Nat) : Nat :=
  observedAt + writeLeaseSeconds + quiesceMargin

/-- Steps 1 and 2 of the cutover: the gate must be published, and the write
leases must have run out since it was first observed. -/
def awaitQuiesce (r : Copy Reshard) (routing : RoutingSpec) : Ctl Unit := do
  if ¬ gatePublished routing r.obj.name then
    .exit (.returned (holdCutover r "GateUnpublished"
      "waiting for the routing compiler to publish the cutover gate"))
  else
    match r.obj.status.cutoverGateObservedAt with
    | none => do
      let now ← timeNow
      .exit (.returned (holdCutover (modifyStatus r fun s => { s with cutoverGateObservedAt := some now })
        "Quiescing" "gate published; waiting for router write leases to expire"))
    | some observedAt => do
      let now ← timeNow
      if now < quiesceAt observedAt routing.writeLeaseSeconds then
        .exit (.returned (holdCutover r "Quiescing" ("router write leases expire at " ++
          toString (quiesceAt observedAt routing.writeLeaseSeconds))))
      else .ret ()

def journalSuccessors : List String → List KeyBounds → Except String (List (String × KeyRange))
  | name :: names, tr :: ranges => do
    let range ← toRange tr
    let rest ← journalSuccessors names ranges
    .ok ((name, range) :: rest)
  | _, _ => .ok []

def emitBarrier (r : Copy Reshard) (source : Copy Shard) (pod : Pod) : Ctl (Copy Reshard) := do
  match journalSuccessors r.obj.status.targetShards r.obj.spec.targetRanges with
  | .error e => failCutover r (some source) "InvalidTargetRange" e
  | .ok successors =>
    match ← call (.emitJournal {
        host := pod.podIP
        database := shardDatabaseName source.obj
        targetPodUid := pod.uid
        id := ⟨r.obj.uid, r.obj.status.cutoverAttempt⟩
        sourceShard := source.obj.name
        successors }) with
    | .error e =>
      match e.code with
      | .invalidArgument => failCutover r (some source) "FreezeRejected" e.message
      | .failedPrecondition => failCutover r (some source) "FreezeRejected" e.message
      | _ => .ret (holdCutover r "FreezeFailed" e.message)
    | .ok lsn =>
      if lsn = 0 then .ret (holdCutover r "FreezeFailed" "the agent returned no barrier position")
      else
        match ← stillPrimary source.obj pod with
        | false =>
          .ret (holdCutover r "SourceUnverified" "the source primary changed during the freeze; retrying")
        | true =>
          .ret (holdCutover (modifyStatus r fun s => { s with cutoverFrozenLSN := lsn }) "Frozen"
            ("barrier emitted at " ++ hex lsn ++ "; awaiting target acknowledgements"))

/-- Fences the source, so that no write commits after the barrier, and emits it. -/
def freezeSource (r : Copy Reshard) (source : Copy Shard) : Ctl (Copy Reshard) := do
  match ← verifiedPrimary source.obj with
  | none =>
    .ret (holdCutover r "SourceUnverified"
      ("source shard " ++ quoted source.obj.name ++ " has no verified primary to freeze"))
  | some pod => do
    agentClient pod.podIP
    match ← call (.fenceWrites ⟨pod.podIP, shardDatabaseName source.obj, pod.uid, false⟩) with
    | .error e =>
      match e.code with
      | .invalidArgument => failCutover r (some source) "FenceRejected" e.message
      | _ => .ret (holdCutover r "FenceFailed" e.message)
    | .ok () => emitBarrier r source pod

def targetAcknowledged (r : Copy Reshard) (i : Nat) (target : Shard) : Ctl Bool := do
  match ← verifiedPrimary target with
  | none =>
    .exit (.returned (holdCutover r "TargetUnready"
      ("target shard " ++ quoted target.name ++ " has no verified primary")))
  | some pod => do
    agentClient pod.podIP
    match ← workflowStatus pod.podIP (seedWorkflowID r.obj i) with
    | .error e => .exit (.returned (holdCutover r "WorkflowStatusUnavailable" e))
    | .ok status =>
      match ← stillPrimary target pod with
      | false =>
        .exit (.returned (holdCutover r "TargetUnready"
          ("target shard " ++ quoted target.name ++ " primary changed during the status read")))
      | true =>
        if status.phase ≠ .streaming then
          .exit (.returned (holdCutover r "WorkflowNotStreaming"
            ("workflow " ++ seedWorkflowID r.obj i ++ " is not streaming; the barrier cannot converge")))
        else .ret (decide (r.obj.status.cutoverFrozenLSN ≤ status.journalLsn.getD 0))

def barrierAcknowledged (r : Copy Reshard) (source : Copy Shard) : Nat → List String → Ctl Bool
  | _, [] => .ret true
  | i, name :: rest => do
    match ← fetchShard name with
    | none =>
      .exit (.returned (holdCutover r "TargetShardMissing" ("target shard " ++ quoted name ++ " not found")))
    | some target =>
      match foreignTarget r.obj target.obj i with
      | some (reason, message) => do
        let failed ← failCutover r (some source) reason message
        .exit (.returned failed)
      | none =>
        match ← targetAcknowledged r i target.obj with
        | false => .ret false
        | true => barrierAcknowledged r source (i + 1) rest

/-- The state the routing lists a shard in; a shard listed twice counts last. -/
def routedState (routing : RoutingSpec) (name : String) : Option RoutingShardState :=
  (routing.shards.reverse.find? (·.name == name)).map (·.state)

/-- Routing shows every target serving and the source hidden. -/
def switchedSetCompiled (routing : RoutingSpec) (sourceName : String) (targets : List String) : Bool :=
  routedState routing sourceName == some .hidden &&
    targets.all fun t => routedState routing t == some .serving

def serveTarget (target : Copy Shard) : Ctl (Copy Shard) := do
  if ¬ target.obj.serving then updateShard { target with obj := { target.obj with serving := true } }
  else .ret target

def serveTargets : List String → Ctl Unit
  | [] => .ret ()
  | name :: rest => do
    match ← call (.getShard name) with
    | .found target => do
      let _ ← serveTarget target
      serveTargets rest
    | _ => .exit .failed

def hideSource (source : Copy Shard) : Ctl (Copy Shard) := do
  if source.obj.serving then updateShard { source with obj := { source.obj with serving := false } }
  else .ret source

/-- Runs after the point of no return: flip the serving set, observe it compiled,
release the claim and withdraw the gate. -/
def completeSwitch (r : Copy Reshard) (source : Copy Shard) : Ctl (Copy Reshard) := do
  serveTargets r.obj.status.targetShards
  let hidden ← hideSource source
  match ← call (.getRouting r.obj.spec.clusterRef) with
  | .found routing =>
    if ¬ switchedSetCompiled routing hidden.obj.name r.obj.status.targetShards then
      .ret (holdCutover r "AwaitingSwitchedRouting"
        "waiting for the routing compiler to publish the switched serving set")
    else do
      releaseSourceClaim r hidden
      .ret (setReshardCondition
        (modifyStatus r fun s => { s with cutoverGateDeadline := none, phase := .switchedForward })
        .cutOver true "SwitchedForward" "targets serve the key range; the source is hidden")
  | _ => .exit .failed

/-- Steps 4 and 5: the acknowledged barrier, the deadline once more, the commit. -/
def commitSwitch (r : Copy Reshard) (source : Copy Shard) : Ctl (Copy Reshard) := do
  match ← barrierAcknowledged r source 0 r.obj.status.targetShards with
  | false =>
    .ret (holdCutover r "AwaitingBarrier" ("waiting for every target workflow to acknowledge the barrier " ++
      hex r.obj.status.cutoverFrozenLSN))
  | true =>
    match ← deadlineExpired r with
    | true =>
      rollBackCutover r source.obj "the cutover gate deadline expired before the switch could commit"
    | false =>
      .ret (holdCutover (modifyStatus r fun s => { s with switchCommitted := true }) "SwitchCommitted"
        "barrier acknowledged by every target; committing the switch")

/-- The steps of a cutover that has not committed. -/
def driveCutover (r : Copy Reshard) (source : Copy Shard) : Ctl (Copy Reshard) := do
  match ← deadlineExpired r with
  | true =>
    rollBackCutover r source.obj
      "the cutover gate deadline expired before the switch committed; retrying from CatchingUp"
  | false =>
    match ← fetchRouting r.obj.spec.clusterRef with
    | none => .ret (holdCutover r "RoutingMissing" "no compiled routing exists yet")
    | some routing => do
      awaitQuiesce r routing
      if r.obj.status.cutoverFrozenLSN = 0 then
        if r.obj.status.sourceFenced then freezeSource r source
        else .ret (modifyStatus r fun s => { s with sourceFenced := true })
      else commitSwitch r source

/-- Each step is gated on the persisted status, so a crash resumes where it left off. -/
def reconcileCuttingOver (r : Copy Reshard) : Ctl (Copy Reshard) := do
  match ← fetchCluster r.obj.spec.clusterRef with
  | none =>
    .ret (holdCutover r "ClusterNotFound" ("cluster " ++ quoted r.obj.spec.clusterRef ++ " not found"))
  | some cluster =>
    if r.obj.status.clusterUID ≠ cluster.uid then do
      let source ← sourceForCleanup r
      failCutover r source "ClusterReplaced" (clusterReplacedMessage cluster)
    else
      match ← fetchShard r.obj.spec.sourceShard with
      | none =>
        .ret (holdCutover r "SourceShardMissing"
          ("source shard " ++ quoted r.obj.spec.sourceShard ++ " not found"))
      | some source =>
        if r.obj.status.sourceShardUID ≠ source.obj.uid then do
          releaseSourceClaim r source
          .ret (fail r .cutOver "SourceReplaced" ("source shard " ++ quoted source.obj.name ++
            " is not the object this reshard was validated against"))
        else if r.obj.status.targetShards.length ≠ r.obj.spec.targetRanges.length then
          failCutover r (some source) "TargetListMismatch"
            "status.targetShards does not match the spec target ranges"
        else if r.obj.status.switchCommitted then completeSwitch r source
        else driveCutover r source

end PgShard.Operator
