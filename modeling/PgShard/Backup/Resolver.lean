import PgShard.Lib.Checked
import PgShard.Lib.Selection
import PgShard.Lib.Quote

/-! The backup catalog of a cluster, and how a restore target is resolved against it. -/

namespace PgShard.Backup

/-- A point in time, with the texts its `Format` gives. Those depend on its location, comparisons
do not. -/
structure Time where
  nanos : Int
  rfc3339 : String
  rfc3339Nano : String
  deriving DecidableEq

def Time.after (t u : Time) : Bool := decide (u.nanos < t.nanos)

def Time.equal (t u : Time) : Bool := decide (t.nanos = u.nanos)

structure KeyRangeRef where
  start : String
  stop : String
  deriving DecidableEq

structure ShardTopology where
  name : String
  keyRange : KeyRangeRef := ⟨"", ""⟩
  stanza : String
  role : String
  state : String
  deriving DecidableEq

structure SequenceTopology where
  column : String
  sequence : String
  deriving DecidableEq

structure TableTopology where
  schema : String
  name : String
  type : String
  shardKeyColumn : String := ""
  shardKeyType : String := ""
  sequences : List SequenceTopology := []
  deriving DecidableEq

structure TopologySnapshot where
  generation : Int
  validFrom : Time
  epoch : Int := 0
  hashFunction : String
  shards : List ShardTopology
  tables : List TableTopology
  deriving DecidableEq

structure BarrierShard where
  name : String
  stanza : String
  lsn : String
  timeline : Int
  restorePoint : String
  deriving DecidableEq

structure BarrierManifest where
  id : String
  time : Time
  routingEpoch : Int := 0
  topologyGeneration : Int
  shards : List BarrierShard
  deriving DecidableEq

structure BackupShard where
  name : String
  stanza : String
  label : String
  stopLSN : String
  timeline : Int
  stopTime : Time
  deriving DecidableEq

structure BackupManifest where
  id : String
  completedAt : Time
  topologyGeneration : Int
  routingEpoch : Int := 0
  shards : List BackupShard
  deriving DecidableEq

structure Catalog where
  topologies : List TopologySnapshot
  barriers : List BarrierManifest
  backups : List BackupManifest
  deriving DecidableEq

def Catalog.entries (catalog : Catalog) : List BackupShard := catalog.backups.flatMap BackupManifest.shards

structure Target where
  barrierID : String := ""
  time : Option Time := none
  backupID : String := ""
  latest : Bool := false
  deriving DecidableEq

inductive TargetType
  | name
  | time
  | lsn
  deriving DecidableEq

def TargetType.text : TargetType → String
  | .name => "name"
  | .time => "time"
  | .lsn => "lsn"

structure ShardPlan where
  shard : String
  stanza : String
  set : String
  targetType : TargetType
  targetValue : String
  targetTimeline : String
  targetExclusive : Bool := false
  verifyLSN : String := ""
  deriving DecidableEq

structure RestorePlan where
  topology : TopologySnapshot
  shards : List ShardPlan
  deriving DecidableEq

/-! ### Looking things up -/

def checkUnique {α β : Type} [DecidableEq β] (identity : α → β) (message : β → String) (items : List α) :
    Except String Unit :=
  Checked.eachWith (fun earlier x =>
    if identity x ∈ earlier.map identity then .error (message (identity x)) else .ok ()) [] items

def validate (catalog : Catalog) : Except String Unit := do
  checkUnique BarrierManifest.id (fun id => "barrier id " ++ id ++ " is not unique in the catalog") catalog.barriers
  checkUnique BackupManifest.id (fun id => "backup id " ++ id ++ " is not unique in the catalog") catalog.backups
  checkUnique TopologySnapshot.generation
    (fun generation => "topology generation " ++ toString generation ++ " is not unique in the catalog") catalog.topologies

def findOr {α : Type} (p : α → Bool) (message : String) (items : List α) : Except String α :=
  match items.find? p with
  | some x => .ok x
  | none => .error message

def findBarrier (catalog : Catalog) (id : String) : Except String BarrierManifest :=
  findOr (fun b => b.id == id) ("barrier " ++ id ++ " not found") catalog.barriers

def findBackup (catalog : Catalog) (id : String) : Except String BackupManifest :=
  findOr (fun b => b.id == id) ("backup " ++ id ++ " not found") catalog.backups

def topologyByGeneration (catalog : Catalog) (generation : Int) : Except String TopologySnapshot :=
  findOr (fun s => s.generation == generation) ("topology generation " ++ toString generation ++ " not in catalog")
    catalog.topologies

def TopologySnapshot.supersedes (s current : TopologySnapshot) : Bool :=
  s.validFrom.after current.validFrom || s.validFrom.equal current.validFrom && decide (current.generation < s.generation)

def topologyAt (catalog : Catalog) (t : Time) : Except String TopologySnapshot :=
  match Selection.scan (fun s : TopologySnapshot => !s.validFrom.after t) TopologySnapshot.supersedes catalog.topologies with
  | some s => .ok s
  | none => .error ("target " ++ t.rfc3339 ++ " predates the first topology snapshot")

def BackupShard.precedes (stanza : String) (t : Time) (shard : BackupShard) : Bool :=
  !(shard.stanza != stanza || shard.stopTime.after t)

def BackupShard.newer (shard best : BackupShard) : Bool := shard.stopTime.after best.stopTime

def newestBackupBefore (catalog : Catalog) (stanza : String) (t : Time) : Option BackupShard :=
  catalog.backups.foldl (fun best backup =>
    backup.shards.foldl (Selection.keep (BackupShard.precedes stanza t) BackupShard.newer) best) none

def BackupManifest.later (backup newest : BackupManifest) : Bool :=
  backup.completedAt.after newest.completedAt ||
    backup.completedAt.equal newest.completedAt && decide (newest.id < backup.id)

def timelineArg (timeline : Int) : String := toString timeline

/-! ### Checking a plan -/

def roleData : String := "data"
def roleSystem : String := "system"
def hashXxhash64 : String := "xxhash64_v1"

def knownState (state : String) : Bool :=
  state == "serving" || state == "buffered" || state == "readOnly" || state == "draining" || state == "hidden"

def knownKeyType (type : String) : Bool := type == "int" || type == "text" || type == "uuid" || type == "bytea"

section

/- `strings.ToLower` -/
variable (lower : String → String)

def TableTopology.key (t : TableTopology) : String := lower t.schema ++ "." ++ lower t.name

def checkTable (generation : String) (earlier : List TableTopology) (t : TableTopology) : Except String Unit :=
  let key := t.key lower
  if t.schema = "" ∨ t.name = "" then .error (generation ++ " has a table entry without schema or name")
  else if key ∈ earlier.map (TableTopology.key lower) then .error (generation ++ " lists table " ++ key ++ " twice")
  else if t.type = "sharded" then
    if t.shardKeyColumn = "" ∨ t.shardKeyType = "" then
      .error (generation ++ ": sharded table " ++ key ++ " records no shard key column/type")
    else if !knownKeyType t.shardKeyType then
      .error (generation ++ ": sharded table " ++ key ++ " has unknown shard-key type " ++ Quote.quoted t.shardKeyType ++
        " (need int|text|uuid|bytea)")
    else .ok ()
  else if t.type = "global" then .ok ()
  else .error (generation ++ ": table " ++ key ++ " has unknown type " ++ Quote.quoted t.type)

def checkShard (generation : String) (shard : ShardTopology) : Except String Unit :=
  if shard.role ≠ roleData ∧ shard.role ≠ roleSystem then
    .error (generation ++ ": shard " ++ shard.name ++ " has unknown role " ++ Quote.quoted shard.role ++ " (need data|system)")
  else if !knownState shard.state then
    .error (generation ++ ": shard " ++ shard.name ++ " has unknown routing state " ++ Quote.quoted shard.state)
  else .ok ()

def snapshotComplete (topology : TopologySnapshot) : Except String Unit := do
  let generation := "topology generation " ++ toString topology.generation
  if topology.hashFunction ≠ hashXxhash64 then
    .error (generation ++ " records hash function " ++ Quote.quoted topology.hashFunction ++ "; only " ++ Quote.quoted hashXxhash64 ++
      " is implemented, so this snapshot cannot rebuild usable routing")
  Checked.eachWith (fun _ => checkShard generation) [] topology.shards
  let systemShards := topology.shards.countP fun shard => shard.role == roleSystem
  if systemShards ≠ 1 then
    .error (generation ++ " has " ++ toString systemShards ++ " system shards; a restorable snapshot records exactly one")
  Checked.eachWith (checkTable lower generation) [] topology.tables

end

def checkStanza (generation : String) (earlier : List ShardTopology) (s : ShardTopology) : Except String Unit :=
  if s.stanza = "" then .error (generation ++ " shard " ++ s.name ++ " has no stanza")
  else if s.name ∈ earlier.map ShardTopology.name then .error (generation ++ " lists shard " ++ s.name ++ " twice")
  else
    match earlier.find? fun other => other.stanza == s.stanza with
    | some other => .error (generation ++ " maps shards " ++ other.name ++ " and " ++ s.name ++ " to the same stanza " ++
        Quote.quoted s.stanza)
    | none => .ok ()

def checkEntry (topology : TopologySnapshot) (earlier : List ShardPlan) (p : ShardPlan) : Except String Unit :=
  let generation := "topology generation " ++ toString topology.generation
  match topology.shards.find? fun s => s.name == p.shard with
  | none => .error ("shard " ++ p.shard ++ " planned but not in " ++ generation)
  | some s =>
    if p.shard ∈ earlier.map ShardPlan.shard then .error ("shard " ++ p.shard ++ " planned twice")
    else if p.stanza ≠ s.stanza then
      .error ("shard " ++ p.shard ++ " planned from stanza " ++ Quote.quoted p.stanza ++ " but " ++ generation ++ " records " ++
        Quote.quoted s.stanza)
    else if p.set = "" then .error ("shard " ++ p.shard ++ " has no backup set")
    else if (p.targetType = .name ∨ p.targetType = .lsn) ∧ p.targetValue = "" then
      .error ("shard " ++ p.shard ++ ": " ++ p.targetType.text ++ " target with empty target value")
    else if p.targetType = .name ∧ p.verifyLSN = "" then
      .error ("shard " ++ p.shard ++ ": restore point " ++ Quote.quoted p.targetValue ++ " has no recorded LSN to verify against")
    else .ok ()

def sanity (lower : String → String) (plan : RestorePlan) : Except String Unit := do
  let generation := "topology generation " ++ toString plan.topology.generation
  snapshotComplete lower plan.topology
  if plan.shards.length ≠ plan.topology.shards.length then
    .error ("plan covers " ++ toString plan.shards.length ++ " shards but " ++ generation ++ " has " ++
      toString plan.topology.shards.length)
  Checked.eachWith (checkStanza generation) [] plan.topology.shards
  Checked.eachWith (checkEntry plan.topology) [] plan.shards
  match plan.topology.shards.find? fun s => s.name ∉ plan.shards.map ShardPlan.shard with
  | some s => .error ("shard " ++ s.name ++ " in " ++ generation ++ " has no restore plan")
  | none => .ok ()

/-! ### Resolving a target -/

section

variable (lower : String → String) (catalog : Catalog)

/-- A plan is returned with the verdict of `sanity` on it. -/
def checked (plan : RestorePlan) : Except String RestorePlan := do
  sanity lower plan
  .ok plan

def barrierEntry (barrier : BarrierManifest) (shard : BarrierShard) : Except String ShardPlan :=
  match newestBackupBefore catalog shard.stanza barrier.time with
  | none => .error ("barrier " ++ barrier.id ++ ": no backup of stanza " ++ shard.stanza ++ " completed before " ++
      barrier.time.rfc3339)
  | some backup => .ok {
      shard := shard.name, stanza := shard.stanza, set := backup.label, targetType := .name
      targetValue := shard.restorePoint, targetTimeline := timelineArg shard.timeline, verifyLSN := shard.lsn }

def resolveBarrier (id : String) : Except String RestorePlan := do
  let barrier ← findBarrier catalog id
  let topology ← topologyByGeneration catalog barrier.topologyGeneration
  let shards ← barrier.shards.mapM (barrierEntry catalog barrier)
  checked lower ⟨topology, shards⟩

def timeEntry (t : Time) (shard : ShardTopology) : Except String ShardPlan :=
  match newestBackupBefore catalog shard.stanza t with
  | none => .error ("time " ++ t.rfc3339 ++ ": no backup of stanza " ++ shard.stanza ++ " completed before target")
  | some backup => .ok {
      shard := shard.name, stanza := shard.stanza, set := backup.label, targetType := .time
      targetValue := t.rfc3339Nano, targetTimeline := "latest" }

def resolveTime (t : Time) : Except String RestorePlan := do
  let topology ← topologyAt catalog t
  let shards ← topology.shards.mapM (timeEntry catalog t)
  checked lower ⟨topology, shards⟩

def backupEntry (backup : BackupManifest) (shard : BackupShard) : Except String ShardPlan :=
  if shard.stopLSN = "" then
    .error ("backup " ++ backup.id ++ ": shard " ++ shard.name ++
      " records no stop LSN; refusing an unverifiable restore")
  else .ok {
    shard := shard.name, stanza := shard.stanza, set := shard.label, targetType := .lsn, targetValue := shard.stopLSN
    targetExclusive := true, targetTimeline := timelineArg shard.timeline, verifyLSN := shard.stopLSN }

def planFromBackup (backup : BackupManifest) : Except String RestorePlan := do
  let topology ← topologyByGeneration catalog backup.topologyGeneration
  let shards ← backup.shards.mapM (backupEntry backup)
  checked lower ⟨topology, shards⟩

def resolveBackup (id : String) : Except String RestorePlan := do
  let backup ← findBackup catalog id
  planFromBackup lower catalog backup

def latestBackup : List BackupManifest → Option BackupManifest
  | [] => none
  | first :: rest => some (rest.foldl (fun newest backup => if backup.later newest then backup else newest) first)

def resolveLatest : Except String RestorePlan :=
  match latestBackup catalog.backups with
  | none => .error "catalog has no backups"
  | some newest => planFromBackup lower catalog newest

def Target.selectors (target : Target) : Nat :=
  (if target.barrierID ≠ "" then 1 else 0) + (if target.time.isSome then 1 else 0) +
    (if target.backupID ≠ "" then 1 else 0) + (if target.latest then 1 else 0)

def resolve (target : Target) : Except String RestorePlan := do
  if target.selectors ≠ 1 then
    .error ("restore target must set exactly one selector, got " ++ toString target.selectors)
  validate catalog
  if target.barrierID ≠ "" then resolveBarrier lower catalog target.barrierID
  else
    match target.time with
    | some t => resolveTime lower catalog t
    | none => if target.backupID ≠ "" then resolveBackup lower catalog target.backupID else resolveLatest lower catalog

end

end PgShard.Backup
