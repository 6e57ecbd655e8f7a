import PgShard.Repl.Message
import PgShard.Lib.Quote

namespace PgShard

inductive ApplyError
  | db
  | unknownRelation (oid : Oid)
  | columnCountMismatch (relation : String) (expected actual : Nat)
  | invalidUtf8
  | rowCountMismatch (affected : Nat)
  | fenced (reason : String)
  | unsupported (what : String)
  deriving DecidableEq

structure RelationInfo where
  schema : String
  table : String
  columns : List String
  replicaIdentity : Char
  keyColumns : List Nat
  deriving DecidableEq

def keyPositions (i : Nat) : List RelationColumn → List Nat
  | [] => []
  | c :: rest => if c.isKey then i :: keyPositions (i + 1) rest else keyPositions (i + 1) rest

def RelationInfo.ofMsg (r : Relation) : RelationInfo where
  schema := r.namespace
  table := r.name
  columns := r.columns.map RelationColumn.name
  replicaIdentity := r.replicaIdentity
  keyColumns := keyPositions 0 r.columns

inductive Cell
  | null
  | text (bytes : List UInt8)
  | unchanged
  deriving DecidableEq

def cellOf : TupleColumn → Except ApplyError Cell
  | .null => .ok .null
  | .text bytes => .ok (.text bytes)
  | .unchangedToast => .ok .unchanged
  | .binary _ => .error (.unsupported "binary-format value")

def tupleCells (tuple : TupleData) : Except ApplyError (List Cell) := tuple.mapM cellOf

inductive PendingChange
  | insert (relOid : Oid) (new : List Cell)
  | update (relOid : Oid) (keySource new : List Cell)
  | delete (relOid : Oid) (keySource : List Cell)
  deriving DecidableEq

def PendingChange.relOid : PendingChange → Oid
  | .insert oid _ => oid
  | .update oid _ _ => oid
  | .delete oid _ => oid

/-! ### Rendering the statements -/

def quoteWith (q : Char) (s : String) : String :=
  String.ofList (q :: s.toList.flatMap (fun c => if c = q then [q, q] else [c]) ++ [q])

def quoteIdent (name : String) : String := quoteWith '"' name

def quoteLiteral (value : String) : String := quoteWith '\'' value

def fromUtf8 (bytes : List UInt8) : Option String := String.fromUTF8? ⟨bytes.toArray⟩

def renderCell : Cell → Except ApplyError String
  | .null => .ok "NULL"
  | .text bytes =>
    match fromUtf8 bytes with
    | some text => .ok (quoteLiteral text)
    | none => .error .invalidUtf8
  | .unchanged => .error (.unsupported "unshipped TOAST value in a full row")

def checkLen (relation : RelationInfo) (cells : List Cell) : Except ApplyError Unit :=
  if cells.length ≠ relation.columns.length then
    .error (.columnCountMismatch (relation.schema ++ "." ++ relation.table) relation.columns.length cells.length)
  else .ok ()

def buildInsert (relation : RelationInfo) (values : List Cell) : Except ApplyError String := do
  checkLen relation values
  let columns := ", ".intercalate (relation.columns.map quoteIdent)
  let rendered ← values.mapM renderCell
  .ok ("INSERT INTO " ++ quoteIdent relation.schema ++ "." ++ quoteIdent relation.table ++ " (" ++ columns ++
    ") VALUES (" ++ ", ".intercalate rendered ++ ")")

/-- One condition of the WHERE clause. The key column's cell is in range
because the caller has checked the length. -/
def keyCondition (relation : RelationInfo) (keySource : List Cell) (i : Nat) : Except ApplyError String :=
  match keySource[i]?.getD .null with
  | .null => .error (.unsupported "null replica-identity key")
  | .unchanged => .error (.unsupported "unshipped replica-identity key")
  | cell => do
    let rendered ← renderCell cell
    .ok (quoteIdent (relation.columns[i]?.getD "") ++ " = " ++ rendered)

def keyedIdentity (replicaIdentity : Char) : Bool := replicaIdentity == 'd' || replicaIdentity == 'i'

def buildWhere (relation : RelationInfo) (keySource : List Cell) : Except ApplyError String := do
  if !keyedIdentity relation.replicaIdentity then
    .error (.unsupported
      "update/delete requires REPLICA IDENTITY DEFAULT or an index (full/nothing not supported)")
  else if relation.keyColumns.isEmpty then
    .error (.unsupported "update/delete on a table with no replica-identity key")
  else
    let conditions ← relation.keyColumns.mapM (keyCondition relation keySource)
    .ok (" AND ".intercalate conditions)

def buildAssignments : List String → List Cell → Except ApplyError (List String)
  | name :: names, cell :: cells =>
    if cell = .unchanged then buildAssignments names cells
    else do
      let rendered ← renderCell cell
      let rest ← buildAssignments names cells
      .ok ((quoteIdent name ++ " = " ++ rendered) :: rest)
  | _, _ => .ok []

def buildUpdate (relation : RelationInfo) (keySource new : List Cell) : Except ApplyError (Option String) := do
  checkLen relation keySource
  checkLen relation new
  let assignments ← buildAssignments relation.columns new
  if assignments.isEmpty then .ok none
  else
    let condition ← buildWhere relation keySource
    .ok (some ("UPDATE " ++ quoteIdent relation.schema ++ "." ++ quoteIdent relation.table ++ " SET " ++
      ", ".intercalate assignments ++ " WHERE " ++ condition))

def buildDelete (relation : RelationInfo) (keySource : List Cell) : Except ApplyError String := do
  checkLen relation keySource
  let condition ← buildWhere relation keySource
  .ok ("DELETE FROM " ++ quoteIdent relation.schema ++ "." ++ quoteIdent relation.table ++ " WHERE " ++ condition)

/-! ### The applier -/

abbrev RelationMap := Oid → Option RelationInfo

def RelationMap.insert (relations : RelationMap) (oid : Oid) (info : RelationInfo) : RelationMap :=
  fun o => if o = oid then some info else relations o

def RelationMap.find (relations : RelationMap) (oid : Oid) : Except ApplyError RelationInfo :=
  match relations oid with
  | some info => .ok info
  | none => .error (.unknownRelation oid)

def buildStatement (relations : RelationMap) : PendingChange → Except ApplyError (Option String)
  | .insert oid new => do
    let relation ← relations.find oid
    let sql ← buildInsert relation new
    .ok (some sql)
  | .update oid keySource new => do
    let relation ← relations.find oid
    buildUpdate relation keySource new
  | .delete oid keySource => do
    let relation ← relations.find oid
    let sql ← buildDelete relation keySource
    .ok (some sql)

def buildStatements (relations : RelationMap) : List PendingChange → Except ApplyError (List String)
  | [] => .ok []
  | change :: rest => do
    let sql ← buildStatement relations change
    let others ← buildStatements relations rest
    .ok (sql.toList ++ others)

structure Applier where
  consumer : String
  relations : RelationMap
  checkpoint : Nat
  ack : Nat
  pending : List PendingChange

def pendingChange : LogicalRepMsg → Except ApplyError (Option PendingChange)
  | .insert oid new => do
    let cells ← tupleCells new
    .ok (some (.insert oid cells))
  | .update oid key old new => do
    let keySource ← tupleCells ((key.or old).getD new)
    let cells ← tupleCells new
    .ok (some (.update oid keySource cells))
  | .delete oid key old =>
    match key.or old with
    | some tuple => do
      let keySource ← tupleCells tuple
      .ok (some (.delete oid keySource))
    | none => .error (.unsupported "delete without a replica-identity key")
  | _ => .ok none

/-- `handle` on every message but a Commit, which needs the target. -/
def Applier.handle (a : Applier) (msg : LogicalRepMsg) : Except ApplyError Applier :=
  match msg with
  | .relation r => .ok { a with relations := a.relations.insert r.oid (.ofMsg r) }
  | .begin _ => .ok { a with pending := [] }
  | .insert _ _ | .update _ _ _ _ | .delete _ _ _ => do
    let change ← pendingChange msg
    .ok { a with pending := a.pending ++ change.toList }
  | .origin _ _ | .type _ | .message _ _ _ _ | .commit _ _ => .ok a
  | .truncate _ => .error (.unsupported "TRUNCATE apply")
  | .streamed _ => .error (.unsupported "streamed or two-phase transactions")

/-- `as i64` and `as u64` on 64-bit positions. -/
def asI64 (n : Nat) : Int := if n < 2 ^ 63 then n else n - 2 ^ 64

def asU64 (i : Int) : Nat := (i % 2 ^ 64).toNat

structure ProgressRow where
  lsn : Int
  endLsn : Int
  deriving DecidableEq

def Applier.new (consumer : String) (progress : Option ProgressRow) : Applier :=
  match progress with
  | some row => ⟨consumer, fun _ => none, asU64 row.lsn, max (asU64 row.endLsn) (asU64 row.lsn), []⟩
  | none => ⟨consumer, fun _ => none, 0, 0, []⟩

/-- The checkpoint statement: insert the row, or move an existing one forward.
`none` is the answer "no row changed". -/
def advanceProgress (progress : Option ProgressRow) (commitLsn endLsn : Nat) : Option ProgressRow :=
  match progress with
  | none => some ⟨asI64 commitLsn, asI64 endLsn⟩
  | some row => if row.lsn < asI64 commitLsn then some ⟨asI64 commitLsn, asI64 endLsn⟩ else none

/-- PostgreSQL running one statement text on the tables of the target: an
error, or the new tables and the number of rows affected. -/
structure TargetDb (Tables : Type) where
  execute : String → Tables → Option (Tables × Nat)

variable {Tables : Type}

def runStatements (db : TargetDb Tables) : List String → Tables → Except ApplyError Tables
  | [], tables => .ok tables
  | sql :: rest, tables =>
    match db.execute sql tables with
    | none => .error .db
    | some (changed, affected) =>
      if affected ≠ 1 then .error (.rowCountMismatch affected) else runStatements db rest changed

/-- What a Commit leads to: nothing to do, or a target transaction. -/
inductive CommitPlan
  | skip (next : Applier)
  | transact (statements : List String)

def Applier.planCommit (a : Applier) (commitLsn endLsn : Nat) : Except ApplyError CommitPlan :=
  if commitLsn ≤ a.checkpoint then .ok (.skip { a with ack := max a.ack endLsn, pending := [] })
  else do
    let statements ← buildStatements a.relations a.pending
    .ok (.transact statements)

def transact (db : TargetDb Tables) (consumer : String) (statements : List String) (commitLsn endLsn : Nat)
    (tables : Tables) (progress : Option ProgressRow) : Except ApplyError (Tables × ProgressRow) := do
  let changed ← runStatements db statements tables
  match advanceProgress progress commitLsn endLsn with
  | some row => .ok (changed, row)
  | none => .error (.fenced ("durable progress for consumer " ++ Quote.debug consumer ++
      " is already past commit Lsn(" ++ toString commitLsn ++ ")"))

def Applier.committed (a : Applier) (commitLsn endLsn : Nat) : Applier :=
  { a with checkpoint := commitLsn, ack := max a.ack endLsn, pending := [] }

end PgShard
