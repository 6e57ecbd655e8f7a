import PgShard.Core.VSchema
import PgShard.Sql.Serialize

namespace PgShard

/-- A shard-key value read from the tree: a literal, or a `$n` placeholder
whose value arrives with Bind. -/
inductive KeyVal
  | const (v : ScalarValue)
  | param (n : Nat)
  deriving DecidableEq

def rangeVarTable (rv : RangeVar) : TableName :=
  ⟨if rv.schemaname = "" then "public" else rv.schemaname, rv.relname⟩

/-- Integer and string literals only. An integer literal that does not fit 32
bits arrives as a float string and is parsed back. -/
def scalarFromConst (c : AConst) : Option ScalarValue :=
  if c.isnull then none
  else match c.val with
    | some (.ival i) => some (.int64 i.toInt64)
    | some (.fval f) => (parseI64 f.toList).map .int64
    | some (.sval s) => some (.text s)
    | _ => none

def keyVal : NodeEnum → Option KeyVal
  | .aConst c => (scalarFromConst c).map .const
  | .paramRef number => if 0 < number then some (.param number.toNatClampNeg) else none
  | _ => none

def columnName (fields : List Node) : Option String :=
  match fields.getLast? with
  | some (some (.string s)) => some s
  | _ => none

def isKeyColumn (node : NodeEnum) (keyCol : String) : Bool :=
  match node with
  | .columnRef fields => columnName fields == some keyCol
  | _ => false

def isEqOperator (name : List Node) : Bool :=
  match name with
  | [some (.string s)] => s == "="
  | _ => false

def listKeyValues : List Node → Option (List KeyVal)
  | [] => some []
  | item :: rest => do
    let v ← item.bind keyVal
    let vs ← listKeyValues rest
    some (v :: vs)

def collectAExpr (e : AExpr) (keyCol : String) : List KeyVal :=
  match e.lexpr, e.rexpr with
  | some lhs, some rhs =>
    match e.kind with
    | .op =>
      if isEqOperator e.name then
        if isKeyColumn lhs keyCol then (keyVal rhs).toList
        else if isKeyColumn rhs keyCol then (keyVal lhs).toList
        else []
      else []
    | .in =>
      if isEqOperator e.name && isKeyColumn lhs keyCol then
        match rhs with
        | .list items => (listKeyValues items).getD []
        | _ => []
      else []
    | _ => []
  | _, _ => []

mutual

/-- Only AND is descended: a constraint under OR or NOT need not hold of a
matching row. -/
def collectAnd (keyCol : String) : NodeEnum → List KeyVal
  | .boolExpr .and args => collectAndArgs keyCol args
  | .aExpr e => collectAExpr e keyCol
  | _ => []

def collectAndArgs (keyCol : String) : List (Option NodeEnum) → List KeyVal
  | [] => []
  | some arg :: rest => collectAnd keyCol arg ++ collectAndArgs keyCol rest
  | none :: rest => collectAndArgs keyCol rest

end

def whereKeyValues (whereClause : Node) (keyCol : String) : List KeyVal :=
  match whereClause with
  | some node => collectAnd keyCol node
  | none => []

def isColumnTarget (keyCol : String) : Node → Bool
  | some (.resTarget name _ _) => name == keyCol
  | _ => false

def rowKeyValue (idx : Nat) (row : Node) : Option KeyVal :=
  match row with
  | some (.list items) => do
    let cell ← items[idx]?
    cell.bind keyVal
  | _ => none

def insertKeyValues (ins : InsertStmt) (keyCol : String) : Option (List KeyVal) :=
  match ins.cols.findIdx? (isColumnTarget keyCol) with
  | none => none
  | some idx =>
    match ins.selectStmt with
    | some (.selectStmt sel) => if sel.valuesLists.isEmpty then none else sel.valuesLists.mapM (rowKeyValue idx)
    | _ => none

def setsColumn (targetList : List Node) (keyCol : String) : Bool :=
  targetList.any (isColumnTarget keyCol)

/-- The tables of a FROM clause, and whether it holds nothing but tables. -/
structure FromClause where
  tables : List TableName
  allPlain : Bool
  deriving DecidableEq

def FromClause.empty : FromClause := ⟨[], true⟩

def FromClause.append (a b : FromClause) : FromClause := ⟨a.tables ++ b.tables, a.allPlain && b.allPlain⟩

mutual

def collectFromItem : NodeEnum → FromClause
  | .rangeVar rv => ⟨[rangeVarTable rv], true⟩
  | .joinExpr larg rarg _ _ => (collectJoinArm larg).append (collectJoinArm rarg)
  | _ => ⟨[], false⟩

def collectJoinArm : Option NodeEnum → FromClause
  | some n => collectFromItem n
  | none => .empty

end

def collectFrom : Node → FromClause
  | some n => collectFromItem n
  | none => ⟨[], false⟩

def analyzeFrom (fromClause : List Node) : FromClause :=
  fromClause.foldl (fun fc item => fc.append (collectFrom item)) .empty

/-! ### Walks over the serialised tree -/

mutual

/-- Some object, at any depth, has the key. -/
def Value.containsKey (key : String) : Value → Bool
  | .object members => members.any (fun m => m.1 == key) || membersContainKey key members
  | .array items => itemsContainKey key items
  | _ => false

def itemsContainKey (key : String) : List Value → Bool
  | [] => false
  | v :: rest => v.containsKey key || itemsContainKey key rest

def membersContainKey (key : String) : List (String × Value) → Bool
  | [] => false
  | (_, v) :: rest => v.containsKey key || membersContainKey key rest

end

def containsNode (tree : Value) (nodeKind : String) : Bool := tree.containsKey nodeKind

def containsSublink (tree : Value) : Bool := containsNode tree "SubLink"

def containsCte (tree : Value) : Bool := containsNode tree "CommonTableExpr"

def Value.get (key : String) : Value → Option Value
  | .object members => (members.find? (fun m => m.1 == key)).map Prod.snd
  | _ => none

def Value.asStr : Value → Option String
  | .string s => some s
  | _ => none

def Value.isObject : Value → Bool
  | .object _ => true
  | _ => false

def cteName (cte : Value) : Option String := do
  let node ← cte.get "node"
  let expr ← node.get "CommonTableExpr"
  let name ← expr.get "ctename"
  name.asStr

def cteNames (withClause : Value) : List String :=
  match withClause.get "ctes" with
  | some (.array ctes) => ctes.filterMap cteName
  | _ => []

def isRecursive (withClause : Value) : Bool :=
  match withClause.get "recursive" with
  | some (.bool b) => b
  | _ => false

/-- A `RangeVar` object that names no visible CTE and that `resolve` does not
know. The names are as written, with an empty schema when unqualified. -/
def unresolvedRangeVar (resolve : String → String → Bool) (visible : List String) (rv : Value) :
    Option (String × String) :=
  let schema := ((rv.get "schemaname").bind Value.asStr).getD ""
  let name := ((rv.get "relname").bind Value.asStr).getD ""
  if (schema == "" && visible.contains name) || resolve schema name then none else some (schema, name)

mutual

/-- The first unresolved relation below a value. A WITH clause opens a scope:
each CTE body sees the earlier names (all of them under RECURSIVE), the other
members of the object see every name. -/
def unresolvedIn (resolve : String → String → Bool) (visible : List String) : Value → Option (String × String)
  | .object members =>
    match ((Value.object members).get "RangeVar").filter Value.isObject with
    | some rv => unresolvedRangeVar resolve visible rv
    | none =>
      match ((Value.object members).get "with_clause").filter Value.isObject with
      | some withClause =>
        let all := visible ++ cteNames withClause
        (unresolvedInWith resolve visible (if isRecursive withClause then some all else none) members).or
          (unresolvedInMembers resolve all (some "with_clause") members)
      | none => unresolvedInMembers resolve visible none members
  | .array items => unresolvedInItems resolve visible items
  | _ => none

def unresolvedInItems (resolve : String → String → Bool) (visible : List String) :
    List Value → Option (String × String)
  | [] => none
  | v :: rest => (unresolvedIn resolve visible v).or (unresolvedInItems resolve visible rest)

def unresolvedInMembers (resolve : String → String → Bool) (visible : List String) (skip : Option String) :
    List (String × Value) → Option (String × String)
  | [] => none
  | (k, v) :: rest =>
    (if some k = skip then none else unresolvedIn resolve visible v).or
      (unresolvedInMembers resolve visible skip rest)

/-- The `ctes` of the object's WITH clause; `all` is present under RECURSIVE. -/
def unresolvedInWith (resolve : String → String → Bool) (visible : List String) (all : Option (List String)) :
    List (String × Value) → Option (String × String)
  | [] => none
  | (k, .object members) :: rest =>
    if k = "with_clause" then unresolvedInCtesMember resolve visible all members
    else unresolvedInWith resolve visible all rest
  | (_, _) :: rest => unresolvedInWith resolve visible all rest

def unresolvedInCtesMember (resolve : String → String → Bool) (visible : List String)
    (all : Option (List String)) : List (String × Value) → Option (String × String)
  | [] => none
  | (k, .array ctes) :: rest =>
    if k = "ctes" then unresolvedInCtes resolve visible all ctes
    else unresolvedInCtesMember resolve visible all rest
  | (_, _) :: rest => unresolvedInCtesMember resolve visible all rest

def unresolvedInCtes (resolve : String → String → Bool) (before : List String) (all : Option (List String)) :
    List Value → Option (String × String)
  | [] => none
  | cte :: rest =>
    (unresolvedIn resolve (all.getD before) cte).or
      (unresolvedInCtes resolve (before ++ (cteName cte).toList) all rest)

end

def findUnresolvedRelation (tree : Value) (resolve : String → String → Bool) : Option (String × String) :=
  unresolvedIn resolve [] tree

end PgShard
