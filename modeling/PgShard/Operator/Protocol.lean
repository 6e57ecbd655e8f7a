import PgShard.Operator.Reconcile

/-! The protocol of a reconcile: what it may do, given what it has read and done before. -/

namespace PgShard.Operator

open Versioned Effects

/-- What a reconcile has read and done so far. `held` is the reshard as last read
or written, `shards` are the shard copies it holds, `unread` the shards a read
did not find, and `nodes` those it knows to be controlled by the reshard. `waited`
is the time as last read since the routing was. -/
structure Pass where
  name : String
  held : Option (Copy Reshard) := none
  shards : List (Copy Shard) := []
  unread : List String := []
  nodes : List String := []
  configs : Option (List TableConfig) := none
  routing : Option RoutingSpec := none
  cluster : Option Cluster := none
  clock : Option Nat := none
  waited : Option Nat := none
  rejected : Bool := false
  fenced : Bool := false
  barrier : Option Nat := none
  owns : Option Bool := none
  liveOpen : Bool := false
  unfenced : Bool := false
  lifted : Bool := false
  dropped : Bool := false
  stuck : Bool := false

namespace Pass

/-- The live reshard is the one held, and its switch has not committed. -/
def sameOpen (p : Pass) (live : Reshard) : Bool :=
  p.held.any fun h => h.obj.uid == live.uid && !live.status.switchCommitted

def committed (p : Pass) : Bool :=
  p.held.any (·.obj.status.switchCommitted)

def rejects (p : Pass) (e : RpcError) (codes : List RpcCode) : Pass :=
  if e.code ∈ codes then { p with rejected := true } else p

/-- A status write that is not known to have been stored leaves the pass stuck: it
makes no further change. -/
def wroteStatus (p : Pass) (r : Copy Reshard) : Wrote → Pass
  | .stored version => { p with
      held := some { r with version }
      clock := none
      fenced := false
      barrier := none
      liveOpen := p.liveOpen && !r.obj.status.switchCommitted }
  | _ => { p with stuck := true }

/-- A pass that gives up the last finalizer of an object being deleted has
nothing left to work on. -/
def wroteReshard (p : Pass) (r : Copy Reshard) : Wrote → Pass
  | .stored version =>
    if r.obj.deleting && r.obj.finalizers.isEmpty then { p with stuck := true }
    else { p with held := some { r with version } }
  | _ => p

/-- A shard written without a claim counts as a claim dropped, unless the write
is known to have been refused. -/
def wroteShard (p : Pass) (s : Copy Shard) : Wrote → Pass
  | .stored version => { p with
      shards := { s with version } :: p.shards
      owns := none
      dropped := p.dropped || (s.obj.claim == "" && !p.committed) }
  | .conflict => { p with owns := none }
  | .failed => { p with owns := none, dropped := p.dropped || (s.obj.claim == "" && !p.committed) }

def sentFence (p : Pass) (request : FenceRequest) : Except RpcError Unit → Pass
  | .ok () =>
    if request.unfence then { p with unfenced := true, lifted := true } else { p with fenced := true }
  | .error e =>
    if request.unfence then { p with unfenced := true } else p.rejects e [.invalidArgument]

def next (p : Pass) : (o : Op) → Ans o → Pass
  | .getReshard _, .found r => { p with held := some r }
  | .getReshardLive _, .found r => { p with liveOpen := p.sameOpen r.obj }
  | .updateStatus r, answer => p.wroteStatus r answer
  | .updateReshard r, answer => p.wroteReshard r answer
  | .getShard _, .found s => { p with shards := s :: p.shards }
  | .getShard name, _ => { p with unread := name :: p.unread }
  | .getShardLive _, .found s => { p with owns := some (s.obj.claim == p.name) }
  | .updateShard s, answer => p.wroteShard s answer
  | .getCluster name, .found c =>
    if p.held.any (·.obj.spec.clusterRef == name) then { p with cluster := some c } else p
  | .getNodeController name, .found controller =>
    if p.held.any (controller == some ·.obj.uid) then { p with nodes := name :: p.nodes } else p
  | .createNode node, .created => { p with nodes := node.name :: p.nodes }
  | .listTableConfigs, .found configs => { p with configs := some configs }
  | .getRouting _, .found routing => { p with routing := some routing, waited := none }
  | .now, t => { p with clock := some t, waited := some t }
  | .fenceWrites request, answer => p.sentFence request answer
  | .emitJournal _, .ok lsn => { p with barrier := some lsn }
  | .emitJournal _, .error e => p.rejects e [.invalidArgument, .failedPrecondition]
  | .prepareSource _, .error e => p.rejects e [.invalidArgument]
  | .startWorkflow _, .error e => p.rejects e [.invalidArgument]
  | _, _ => p

end Pass

def ReshardPhase.early (phase : ReshardPhase) : Bool :=
  phase == .unset || phase == .pending || phase == .validating

/-- The pass met a reason to fail that its surroundings gave it: a replaced
cluster, a lost source, a foreign target or a call rejected for good. -/
def Tripped (p : Pass) (r : Reshard) : Prop :=
  (∃ c, p.cluster = some c ∧ (r.status.clusterUID = "" ∨ r.status.clusterUID ≠ c.uid)) ∨
  (∃ s ∈ p.shards, s.obj.name = r.spec.sourceShard ∧ (sourceLost r s.obj).isSome) ∨
  (∃ s ∈ p.shards, ∃ i, r.status.targetShards[i]? = some s.obj.name ∧ (foreignTarget r s.obj i).isSome) ∨
  p.rejected

/-- The reshard's own record gives the reason to fail. -/
def Malformed (p : Pass) (r : Reshard) : Prop :=
  r.status.phase.early ∨ r.status.phase = .provisioningTargets ∨ ¬ publicationFits r ∨
  (r.status.phase = .catchingUp ∧ ¬ r.status.seedTablesPinned) ∨
  (∃ c, p.cluster = some c ∧ r.status.targetShards ≠ targetNames c.name r.spec) ∨
  r.status.targetShards.length ≠ r.spec.targetRanges.length ∨
  ∃ tr ∈ r.spec.targetRanges, ∃ e, toRange tr = .error e

/-- The pass read the clock no later than the gate deadline. -/
def Pass.inTime (p : Pass) (r : Reshard) : Prop :=
  ∀ deadline, r.status.cutoverGateDeadline = some deadline → ∃ t, p.clock = some t ∧ t ≤ deadline

/-- An open fence was lifted, or the claim that would authorise that is not ours. -/
def Pass.settled (p : Pass) (r : Reshard) : Prop :=
  r.status.sourceFenced → p.lifted ∨ p.owns = some false

/-- Every change a pass makes to the reshard's status, with what it knows then. -/
inductive Move (p : Pass) (r : Reshard) : ReshardStatus → Prop
  | hold (conditions : List Condition) : Move p r { r.status with conditions }
  | await (conditions : List Condition) (early : r.status.phase.early) :
      Move p r { r.status with phase := .validating, conditions }
  | validated (conditions : List Condition) {source : Copy Shard} {cluster : Cluster}
      (early : r.status.phase.early) (alive : r.deleting = false) (held : source ∈ p.shards)
      (named : source.obj.name = r.spec.sourceShard)
      (fit : sourceRefused r source.obj = none) (partition : partitionRefused r source.obj = none)
      (read : p.cluster = some cluster) :
      Move p r { r.status with
        sourceShardUID := source.obj.uid
        clusterUID := cluster.uid
        phase := .provisioningTargets
        conditions }
  | provisioned (conditions : List Condition) {cluster : Cluster}
      (phase : r.status.phase = .provisioningTargets) (read : p.cluster = some cluster)
      (named : cluster.name = r.spec.clusterRef) :
      Move p r { r.status with targetShards := targetNames cluster.name r.spec, phase := .seeding, conditions }
  | pinned (conditions : List Condition) (seedTables : List SeedTable) (phase : r.status.phase = .seeding)
      (unpinned : r.status.seedTablesPinned = false) :
      Move p r { r.status with seedTables, seedTablesPinned := true, conditions }
  | streaming (conditions : List Condition) (phase : r.status.phase = .seeding)
      (pinned : r.status.seedTablesPinned) (fits : publicationFits r) :
      Move p r { r.status with phase := .catchingUp, conditions }
  | caughtUp (conditions : List Condition) {configs : List TableConfig} (phase : r.status.phase = .catchingUp)
      (pinned : r.status.seedTablesPinned) (read : p.configs = some configs)
      (undrifted : tablesDiffer r.status.seedTables (shardedTables configs r.spec.clusterRef) = none) :
      Move p r { r.status with phase := .readyToCutover, conditions }
  | gate (conditions : List Condition) {source : Copy Shard} {t : Nat}
      (phase : r.status.phase = .readyToCutover) (alive : r.deleting = false) (read : p.clock = some t)
      (held : source ∈ p.shards) (named : source.obj.name = r.spec.sourceShard)
      (claimed : source.obj.claim = p.name) :
      Move p r { r.status with
        cutoverGateDeadline := some (t + cutoverGateWindow), phase := .cuttingOver, conditions }
  | observed (conditions : List Condition) {t : Nat} (phase : r.status.phase = .cuttingOver)
      (uncommitted : r.status.switchCommitted = false) (read : p.waited = some t)
      (gated : ∃ routing, p.routing = some routing ∧ gatePublished routing r.name = true) :
      Move p r { r.status with cutoverGateObservedAt := some t, conditions }
  | oweFence (phase : r.status.phase = .cuttingOver) (uncommitted : r.status.switchCommitted = false)
      (unfrozen : r.status.cutoverFrozenLSN = 0) : Move p r { r.status with sourceFenced := true }
  | frozen (conditions : List Condition) {lsn : Nat} (phase : r.status.phase = .cuttingOver)
      (uncommitted : r.status.switchCommitted = false) (emitted : p.barrier = some lsn) (position : lsn ≠ 0)
      (kept : p.unfenced = false ∧ p.dropped = false) :
      Move p r { r.status with cutoverFrozenLSN := lsn, conditions }
  | commit (conditions : List Condition) (phase : r.status.phase = .cuttingOver) (alive : r.deleting = false)
      (uncommitted : r.status.switchCommitted = false) (frozen : r.status.cutoverFrozenLSN ≠ 0)
      (inTime : p.inTime r) (kept : p.unfenced = false ∧ p.dropped = false)
      (own : ∀ i name, r.status.targetShards[i]? = some name →
        ∃ c ∈ p.shards, c.obj.name = name ∧ foreignTarget r c.obj i = none)
      (gated : ∃ routing, p.routing = some routing ∧ gatePublished routing r.name = true) :
      Move p r { r.status with switchCommitted := true, conditions }
  | rolledBack (conditions : List Condition) {t deadline : Nat} (phase : r.status.phase = .cuttingOver)
      (uncommitted : r.status.switchCommitted = false) (read : p.clock = some t)
      (gated : r.status.cutoverGateDeadline = some deadline) (expired : deadline < t) (settled : p.settled r)
      (kept : p.dropped = false) :
      Move p r { r.status with
        sourceFenced := false
        cutoverGateDeadline := none
        cutoverGateObservedAt := none
        cutoverFrozenLSN := 0
        cutoverAttempt := r.status.cutoverAttempt + 1
        phase := .catchingUp
        conditions }
  | settled (open_ : r.status.phase = .cuttingOver ∨ r.deleting = true)
      (uncommitted : r.status.switchCommitted = false) (settled : p.settled r) :
      Move p r { r.status with sourceFenced := false }
  | failed (conditions : List Condition) (alive : r.deleting = false) (cause : Tripped p r ∨ Malformed p r) :
      Move p r { r.status with phase := .failed, conditions }
  | switched (conditions : List Condition) {routing : RoutingSpec} (phase : r.status.phase = .cuttingOver)
      (committed : r.status.switchCommitted = true) (read : p.routing = some routing)
      (compiled : switchedSetCompiled routing r.spec.sourceShard r.status.targetShards = true) :
      Move p r { r.status with cutoverGateDeadline := none, phase := .switchedForward, conditions }
  | ungated (deleting : r.deleting = true) : Move p r { r.status with cutoverGateDeadline := none }

/-- Every change a pass makes to a shard it holds a copy of. -/
inductive ShardEdit (p : Pass) (r : Reshard) (old : Shard) : Shard → Prop
  | claim (named : old.name = r.spec.sourceShard) (phase : r.status.phase = .readyToCutover)
      (alive : r.deleting = false) (fit : sourceLost r old = none) (free : old.claim = "") :
      ShardEdit p r old { old with claim := p.name }
  | release (named : old.name = r.spec.sourceShard) (own : old.claim = p.name)
      (cause : r.status.switchCommitted = true ∨ r.deleting = true ∨ Tripped p r ∨ Malformed p r)
      (hidden : r.status.switchCommitted = true → old.serving = false ∨ r.status.sourceShardUID ≠ old.uid)
      (unowed : r.status.switchCommitted = false →
        r.status.sourceFenced = false ∨ r.status.sourceShardUID ≠ old.uid) :
      ShardEdit p r old { old with claim := "" }
  | hide (named : old.name = r.spec.sourceShard) (committed : r.status.switchCommitted = true) :
      ShardEdit p r old { old with serving := false }
  | serve (target : old.name ∈ r.status.targetShards) (committed : r.status.switchCommitted = true) :
      ShardEdit p r old { old with serving := true }

/-- A reshard as the pass may write it: the one it holds, with its status moved on. -/
def Settles (p : Pass) (r : Copy Reshard) : Prop :=
  ∃ h status, p.held = some h ∧ Move p h.obj status ∧ r = ⟨h.version, { h.obj with status }⟩

/-- What the reshard in its cutover allows a pass to do to the source database. -/
structure Freezing (r : Reshard) (database : String) : Prop where
  source : database = r.spec.sourceShard
  phase : r.status.phase = .cuttingOver
  alive : r.deleting = false
  uncommitted : r.status.switchCommitted = false
  owed : r.status.sourceFenced = true
  unfrozen : r.status.cutoverFrozenLSN = 0

/-- The pass has seen the gate published, and waited for the leases to expire after that. -/
structure Quiesced (p : Pass) (r : Reshard) : Prop where
  gated : ∃ routing observedAt t, p.routing = some routing ∧ gatePublished routing r.name = true ∧
    r.status.cutoverGateObservedAt = some observedAt ∧ p.waited = some t ∧
    quiesceAt observedAt routing.writeLeaseSeconds ≤ t

/-- The pass found no source, or one that is not the object validated. -/
def Sourceless (p : Pass) (r : Reshard) : Prop :=
  r.spec.sourceShard ∈ p.unread ∨ ∃ c ∈ p.shards, c.obj.name = r.spec.sourceShard ∧
    r.status.sourceShardUID ≠ "" ∧ r.status.sourceShardUID ≠ c.obj.uid

/-- The pass holds a copy of the source that does not carry its claim. -/
def Released (p : Pass) (sourceName : String) (serving : Bool) : Prop :=
  ∃ c ∈ p.shards, c.obj.name = sourceName ∧ (c.obj.claim = "" ∨ c.obj.claim ≠ p.name) ∧ c.obj.serving = serving

/-- Nothing of the cutover is left at the source, as far as the pass can tell. -/
def Cleaned (p : Pass) (r : Reshard) : Prop :=
  r.deleting = true ∧ (Sourceless p r ∨ ∃ serving, Released p r.spec.sourceShard serving ∧
    (r.status.switchCommitted = false → r.status.sourceFenced = false) ∧
    (r.status.switchCommitted = true → serving = false))

/-- The name is one the reshard's ranges derive under some cluster. -/
def TargetName (r : Reshard) (name : String) : Prop :=
  ∃ cluster, name ∈ targetNames cluster r.spec

def Permits (p : Pass) : Op → Prop
  | .getReshard name => name = p.name ∧ p.held = none
  | .getReshardLive name => name = p.name
  | .getShardLive name => ∃ h, p.held = some h ∧ name = h.obj.spec.sourceShard
  | .getRouting name => ∃ h, p.held = some h ∧ name = h.obj.spec.clusterRef
  | .listTableConfigs => ∃ h, p.held = some h
  | .updateStatus r => p.stuck = false ∧ Settles p r
  | .updateReshard r =>
    p.stuck = false ∧ ∃ h finalizers, p.held = some h ∧ r = ⟨h.version, { h.obj with finalizers }⟩ ∧
      (cutoverClaimFinalizer ∈ h.obj.finalizers → cutoverClaimFinalizer ∉ finalizers → Cleaned p h.obj)
  | .updateShard s =>
    p.stuck = false ∧ ∃ h, p.held = some h ∧
      ∃ old ∈ p.shards, s.version = old.version ∧ ShardEdit p h.obj old.obj s.obj
  | .createShard s =>
    s.serving = false ∧ s.claim = "" ∧ ∃ h, p.held = some h ∧ s.controller = some h.obj.uid ∧
      (s.nodeRef ∈ p.nodes ∨ ∃ cluster, s.nodeRef = sharedNodeName cluster)
  | .createNode node =>
    ∃ h, p.held = some h ∧ node.controller = some h.obj.uid ∧
      h.obj.status.phase = .provisioningTargets ∧ TargetName h.obj node.name
  | .fenceWrites request =>
    p.stuck = false ∧ ∃ h, p.held = some h ∧
      if request.unfence then
        request.database = h.obj.spec.sourceShard ∧ p.owns = some true ∧ p.liveOpen = true ∧
          h.obj.status.switchCommitted = false
      else p.unfenced = false ∧ p.dropped = false ∧ Freezing h.obj request.database ∧ Quiesced p h.obj
  | .emitJournal request =>
    p.stuck = false ∧ ∃ h, p.held = some h ∧ p.fenced = true ∧ p.unfenced = false ∧ p.dropped = false ∧
      Freezing h.obj request.database ∧ request.id = ⟨h.obj.uid, h.obj.status.cutoverAttempt⟩
  | _ => True

/-- A read by name answers the object of that name. -/
def Gives : (o : Op) → Ans o → Prop
  | .getReshard name, .found r => r.obj.name = name
  | .getShard name, .found s => s.obj.name = name
  | .getCluster name, .found c => c.name = name
  | _, _ => True

def protocol : Monitor Ans Pass where
  permits := Permits
  gives := Gives
  next := Pass.next

end PgShard.Operator
