import PgShard.Router.Merge
import PgShard.Sql.Ast

/-! Scatter reads (`wire.rs`): which SELECTs are fanned out to every shard, and how the answers of the shards become
one response. -/

namespace PgShard.Router

inductive ScatterPlan
  | concat
  | ordered (keys : List SortKey)
  | unsupported
  deriving DecidableEq

def sortColumn : Node → Option SortColumn
  | some (.columnRef [some (.string s)]) => some (.name s)
  | some (.aConst c) =>
    match c.val with
    | some (.ival i) => if 1 ≤ i then some (.position i.toNatClampNeg) else none
    | _ => none
  | _ => none

/-- NULLs come last ascending and first descending, unless the query states otherwise. -/
def nullsFirst (nulls : SortByNulls) (descending : Bool) : Bool :=
  match nulls with
  | .first => true
  | .last => false
  | _ => descending

def isPlainColumnTarget : Node → Bool
  | some (.resTarget _ _ (some (.columnRef _))) => true
  | _ => false

def sortKey : Node → Option SortKey
  | some (.sortBy node dir nulls) =>
    if dir = .using then none
    else (sortColumn node).map fun column => ⟨column, dir == .desc, nullsFirst nulls (dir == .desc)⟩
  | _ => none

def isPlainProjection (s : SelectStmt) : Bool :=
  s.op == .none && s.withClause.isNone && s.intoClause.isNone && s.lockingClause.isEmpty && s.groupClause.isEmpty &&
    s.havingClause.isNone && s.distinctClause.isEmpty && !s.groupDistinct && s.limitCount.isNone &&
    s.limitOffset.isNone && !s.targetList.isEmpty && s.targetList.all isPlainColumnTarget

/-- `classify_scatter`, on the statements of the query text, which is parsed again. -/
def classifyScatter (parsed : Option (List Node)) : ScatterPlan :=
  match parsed with
  | some [some (.selectStmt s)] =>
    if !isPlainProjection s then .unsupported
    else if s.sortClause.isEmpty then .concat
    else
      match s.sortClause.mapM sortKey with
      | some keys => .ordered keys
      | none => .unsupported
  | _ => .unsupported

inductive BackendResult
  | rows (schema : List FieldInfo) (rows : List DataRow) (commandTag : Option String)
  | command (tag : String)
  | empty
  deriving DecidableEq

inductive Response
  | query (schema : List FieldInfo) (rows : List DataRow) (commandTag : Option String)
  | execution (tag : String) (rows : Option Nat)
  | emptyQuery
  deriving DecidableEq

def schemasMatch (a b : List FieldInfo) : Bool :=
  a.length == b.length &&
    (a.zip b).all fun (x, y) => x.name == y.name && x.datatype == y.datatype && x.format == y.format

abbrev Collected := Option (List FieldInfo) × List DataRow

def collectResult (collected : Collected) : BackendResult → Except UserError Collected
  | .rows schema rows _ =>
    match collected.1 with
    | none => .ok (some schema, collected.2 ++ rows)
    | some first =>
      if schemasMatch first schema then .ok (some first, collected.2 ++ rows)
      else .error ⟨"0A000", "shards returned different result schemas; a schema change may be mid-rollout"⟩
  | .command _ | .empty => .ok collected

def collectShard (collected : Collected) (result : Except UserError (List BackendResult)) :
    Except UserError Collected := do
  let results ← result
  results.foldlM collectResult collected

def collectScatter (results : List (Except UserError (List BackendResult))) :
    Except UserError (Option (List FieldInfo × List DataRow)) := do
  let (schema, rows) ← results.foldlM collectShard (none, [])
  .ok (schema.map fun schema => (schema, rows))

def runScatter (results : List (Except UserError (List BackendResult))) : Except UserError Response := do
  match ← collectScatter results with
  | some (schema, rows) => .ok (.query schema rows none)
  | none => .ok (.execution "SELECT" (some 0))

section

variable {F : Type} [LinearOrder F] [OrderTop F] (parseF64 : String → Option F)

def runOrderedScatter (results : List (Except UserError (List BackendResult))) (keys : List SortKey) :
    Except UserError Response := do
  match ← collectScatter results with
  | some (schema, rows) =>
    let merged ← mergeOrdered parseF64 schema rows keys
    .ok (.query schema merged none)
  | none => .ok (.execution "SELECT" (some 0))

def scatter (plan : ScatterPlan) (results : List (Except UserError (List BackendResult))) :
    Except UserError Response :=
  match plan with
  | .concat => runScatter results
  | .ordered keys => runOrderedScatter parseF64 results keys
  | .unsupported => .error ⟨"0A000", "this scatter read needs limiting or aggregation that is not supported yet"⟩

end

end PgShard.Router
