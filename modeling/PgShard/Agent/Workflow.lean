import PgShard.Repl.TargetTables

namespace PgShard

structure TablePlan where
  schema : String
  name : String
  shardKeyColumn : String
  shardKeyType : ScalarType
  deriving DecidableEq

/-- The validated form of a workflow spec; `plan` refuses a table that is
mapped twice. -/
structure RunPlan where
  id : String
  tables : List TablePlan
  range : KeyRange
  hashFunction : String
  distinct : tables.Pairwise fun a b => ¬ (a.schema = b.schema ∧ a.name = b.name)

inductive WorkflowError
  | shardFn (e : ShardFnError)
  | target
  | copy (e : CopyError)
  | filter (e : FilterError)
  | apply (e : ApplyError)
  | failed (reason : String)
  deriving DecidableEq

def within {E α : Type} (wrap : E → WorkflowError) : Except E α → Except WorkflowError α
  | .ok a => .ok a
  | .error e => .error (wrap e)

def ensure (condition : Bool) (reason : String) : Except WorkflowError Unit :=
  if condition then .ok () else .error (.failed reason)

structure RelFilter where
  keyIndex : Nat
  keyType : ScalarType
  deriving DecidableEq

def allowedKeyOids : ScalarType → List Oid
  | .int => [20, 21, 23]
  | .text => [25, 1043]
  | .uuid => [2950]
  | .bytea => [17]

def ScalarType.debug : ScalarType → String
  | .int => "Int"
  | .text => "Text"
  | .uuid => "Uuid"
  | .bytea => "Bytea"

/-- The streaming loop's own state, the target it writes to, and what it has
published of its status. -/
structure Streaming where
  relations : Oid → Option RelFilter
  applier : Applier
  pendingJournal : Option Nat
  tables : TargetTables
  progress : Option ProgressRow
  confirmed : Nat
  appliedLsn : Nat
  journalLsn : Option Nat

section

variable (server : TargetServer) (run : RunPlan) (shardFn : ShardFunction)

def RunPlan.table? (schema name : String) : Option TablePlan :=
  run.tables.find? fun t => t.schema == schema && t.name == name

/-! ### Seeding -/

/-- What the source answers while a workflow seeds: each table's columns and
the chunks of its COPY stream under the exported snapshot. -/
structure SeedReads where
  snapshot : String
  consistentPoint : Nat
  columns : TablePlan → List String
  chunks : TablePlan → List (List UInt8)

def copySpec (reads : SeedReads) (table : TablePlan) : CopySpec where
  schema := table.schema
  table := table.name
  columns := reads.columns table
  shardKeyColumn := table.shardKeyColumn
  shardKeyType := table.shardKeyType
  targetRange := run.range

def copyTable (reads : SeedReads) (tables : TargetTables) (table : TablePlan) : Except WorkflowError TargetTables := do
  let lines ← within .copy (copyFiltered reads.snapshot (reads.chunks table) (copySpec run reads table) shardFn)
  match server.copyFrom (table.schema, table.name) (reads.columns table) lines tables with
  | some seeded => .ok seeded
  | none => .error (.copy .target)

def seedTable (reads : SeedReads) (tables : TargetTables) (table : TablePlan) : Except WorkflowError TargetTables :=
  copyTable server run shardFn reads (TargetServer.truncate tables (table.schema, table.name)) table

/-- The state in which the streaming loop starts: the seeded target, the
consumer's checkpoint cleared before the seed. -/
def Streaming.start (reads : SeedReads) (seeded : TargetTables) : Streaming where
  relations := fun _ => none
  applier := .new run.id none
  pendingJournal := none
  tables := seeded
  progress := none
  confirmed := 0
  appliedLsn := reads.consistentPoint
  journalLsn := none

/-! ### Streaming -/

def relFilter (relations : Oid → Option RelFilter) (oid : Oid) : Except WorkflowError RelFilter :=
  match relations oid with
  | some f => .ok f
  | none => .error (.failed ("row for unknown relation oid " ++ toString oid))

def Streaming.handle (s : Streaming) (msg : LogicalRepMsg) : Except WorkflowError Streaming :=
  match msg with
  | .commit commitLsn endLsn => do
    let plan ← within .apply (s.applier.planCommit commitLsn endLsn)
    match plan with
    | .skip next => .ok { s with applier := next }
    | .transact statements => do
      let (tables, row) ← within .apply
        (transact server.db s.applier.consumer statements commitLsn endLsn s.tables s.progress)
      .ok { s with applier := s.applier.committed commitLsn endLsn, tables := tables, progress := some row }
  | _ => do
    let next ← within .apply (s.applier.handle msg)
    .ok { s with applier := next }

def Streaming.keep (s : Streaming) (msg : LogicalRepMsg) (kept : Bool) : Except WorkflowError Streaming :=
  if kept then s.handle server msg else .ok s

/-- The filter a Relation message sets up, after the checks that the live
table still is what was preflighted. -/
def admitRelation (rel : Relation) : Except WorkflowError RelFilter :=
  match run.table? rel.namespace rel.name with
  | none => .error (.failed ("stream carries unmapped table " ++ rel.namespace ++ "." ++ rel.name ++
      ": publication wider than the spec"))
  | some table => do
    let keyIndex ← within .filter (shardKeyIndex rel table.shardKeyColumn)
    let column := rel.columns[keyIndex]?
    let keyOid := (column.map RelationColumn.typeOid).getD 0
    let key := rel.namespace ++ "." ++ rel.name ++ "." ++ table.shardKeyColumn
    ensure ((allowedKeyOids table.shardKeyType).contains keyOid)
      ("stream reports shard key " ++ key ++ " as type oid " ++ toString keyOid ++
        ", which cannot be hashed as declared " ++ table.shardKeyType.debug)
    ensure (keyedIdentity rel.replicaIdentity && column.any RelationColumn.isKey)
      ("replica identity of " ++ rel.namespace ++ "." ++ rel.name ++ " no longer covers shard key " ++
        table.shardKeyColumn ++ ": updates and deletes could not be range-filtered")
    .ok ⟨keyIndex, table.shardKeyType⟩

def boundaryCrossed : String :=
  "update moves a shard key across the target range boundary: the source row was written outside the router"

def Streaming.dispatch (s : Streaming) (msg : LogicalRepMsg) : Except WorkflowError Streaming :=
  match msg with
  | .relation rel => do
    let f ← admitRelation run rel
    { s with relations := fun oid => if oid = rel.oid then some f else s.relations oid }.handle server msg
  | .insert oid newTuple => do
    let f ← relFilter s.relations oid
    let kept ← within .filter (tupleInRange newTuple f.keyIndex f.keyType shardFn run.range)
    s.keep server msg kept
  | .update oid key old newTuple => do
    let f ← relFilter s.relations oid
    let newIn ← within .filter (tupleInRange newTuple f.keyIndex f.keyType shardFn run.range)
    match key.or old with
    | some before => do
      let oldIn ← within .filter (tupleInRange before f.keyIndex f.keyType shardFn run.range)
      ensure (oldIn == newIn) boundaryCrossed
      s.keep server msg newIn
    | none => s.keep server msg newIn
  | .delete oid key old => do
    let f ← relFilter s.relations oid
    match key.or old with
    | some tuple => do
      let kept ← within .filter (tupleInRange tuple f.keyIndex f.keyType shardFn run.range)
      s.keep server msg kept
    | none => .error (.failed "delete without key or old tuple")
  | .truncate _ => .error (.failed "TRUNCATE on a seeded table is not supported during seeding")
  | _ => s.handle server msg

/-- A transactional message of the cutover barrier is remembered until its
transaction commits. -/
def Streaming.noteJournal (s : Streaming) : LogicalRepMsg → Streaming
  | .message transactional lsn tag _ =>
    if tag = "pgshard" ∧ transactional then { s with pendingJournal := some lsn } else s
  | _ => s

def Streaming.publish (s : Streaming) : LogicalRepMsg → Streaming
  | .commit _ _ =>
    { s with
      confirmed := if s.applier.ack > s.confirmed then s.applier.ack else s.confirmed
      appliedLsn := s.applier.ack
      journalLsn := s.pendingJournal.or s.journalLsn
      pendingJournal := none }
  | _ => s

def onMessage (s : Streaming) (msg : LogicalRepMsg) : Except WorkflowError Streaming := do
  let next ← (s.noteJournal msg).dispatch server run shardFn msg
  .ok (next.publish msg)

end

/-- A run of the workflow on what the source answers and streams, up to the
last frame it has handled. -/
def runWorkflow (server : TargetServer) (xxh64 : Xxh64) (run : RunPlan) (reads : SeedReads) (target : TargetTables)
    (frames : List LogicalRepMsg) : Except WorkflowError Streaming := do
  let shardFn ← within .shardFn (shardFunction xxh64 run.hashFunction)
  let seeded ← run.tables.foldlM (seedTable server run shardFn reads) target
  frames.foldlM (onMessage server run shardFn) (Streaming.start run reads seeded)

end PgShard
