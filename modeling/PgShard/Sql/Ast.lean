import Mathlib

namespace PgShard

/-- `a_const::Val`. An integer literal outside 32 bits arrives as `fval`. -/
inductive ConstVal
  | ival (v : Int32)
  | fval (v : String)
  | boolval (v : Bool)
  | sval (v : String)
  | bsval (v : String)
  deriving DecidableEq

structure AConst where
  isnull : Bool
  val : Option ConstVal
  deriving DecidableEq

inductive AExprKind
  | undefined | op | opAny | opAll | distinct | notDistinct | nullIf | «in» | like | ilike | similar
  | between | notBetween | betweenSym | notBetweenSym
  deriving DecidableEq

inductive BoolExprType
  | undefined | and | or | not
  deriving DecidableEq

inductive SetOperation
  | undefined | none | union | intersect | except
  deriving DecidableEq

inductive SortByDir
  | undefined | default | asc | desc | using
  deriving DecidableEq

inductive SortByNulls
  | undefined | default | first | last
  deriving DecidableEq

inductive OnConflictAction
  | undefined | none | nothing | update
  deriving DecidableEq

inductive TransactionStmtKind
  | undefined | begin | start | commit | rollback | savepoint | release | rollbackTo | prepare
  | commitPrepared | rollbackPrepared
  deriving DecidableEq

/-- A table or join alias; `colnames` renames the first columns of the item. -/
structure Alias where
  aliasname : String
  colnames : List String
  deriving DecidableEq

structure RangeVar where
  catalogname : String
  schemaname : String
  relname : String
  «alias» : Option Alias
  deriving DecidableEq

/-- The utility statements that classification tells apart by node type. -/
inductive UtilityKind
  | merge | variableSet | variableShow | copy | prepare | execute | deallocate
  | create | alterTable | index | drop | rename | truncate | createSchema | createSeq | alterSeq | view
  | createTableAs | refreshMatView | createForeignTable | createStats | alterStats | alterDomain
  | createDomain | createFunction | alterFunction | createTrig | createEnum | alterEnum | compositeType
  | alterType | define | createExtension | alterExtension | alterExtensionContents | createPolicy
  | alterPolicy | rule | createCast | createTableSpace | createAm | createFdw | alterFdw
  | createForeignServer | alterForeignServer | createUserMapping | alterUserMapping | dropUserMapping
  | importForeignSchema | createPublication | alterPublication | createSubscription | alterSubscription
  | dropSubscription | createRole | alterRole | dropRole | alterObjectSchema | alterOwner | secLabel
  | vacuum | cluster | reindex | comment | grant | grantRole
  deriving DecidableEq

/- `Node` of the protobuf tree is an optional `NodeEnum`: every list item and
every child may be absent. Node types that no routing decision inspects are
`other`, with whatever they contain as children. -/
mutual

inductive NodeEnum
  | aConst (c : AConst)
  | paramRef (number : Int32)
  | columnRef (fields : List (Option NodeEnum))
  | string (sval : String)
  | aStar
  | aExpr (e : AExpr)
  | boolExpr (boolop : BoolExprType) (args : List (Option NodeEnum))
  | list (items : List (Option NodeEnum))
  | subLink (testexpr subselect : Option NodeEnum)
  | typeCast (arg typeName : Option NodeEnum)
  | setToDefault
  | resTarget (name : String) (indirection : List (Option NodeEnum)) (val : Option NodeEnum)
  | multiAssignRef (source : Option NodeEnum) (colno ncolumns : Int32)
  | rangeVar (rv : RangeVar)
  | joinExpr (larg rarg quals : Option NodeEnum) («alias» : Option Alias)
  | rangeSubselect (lateral : Bool) (subquery : Option NodeEnum) («alias» : Option Alias)
  | sortBy (node : Option NodeEnum) (dir : SortByDir) (nulls : SortByNulls)
  | indexElem (name : String) (expr : Option NodeEnum)
  | commonTableExpr (ctename : String) (ctequery : Option NodeEnum)
  | selectStmt (s : SelectStmt)
  | insertStmt (s : InsertStmt)
  | updateStmt (s : UpdateStmt)
  | deleteStmt (s : DeleteStmt)
  | transactionStmt (kind : TransactionStmtKind)
  | utility (kind : UtilityKind) (children : List (Option NodeEnum))
  | other (kind : String) (children : List (Option NodeEnum))

structure AExpr where
  kind : AExprKind
  name : List (Option NodeEnum)
  lexpr : Option NodeEnum
  rexpr : Option NodeEnum

structure WithClause where
  ctes : List (Option NodeEnum)
  recursive : Bool

structure SelectStmt where
  distinctClause : List (Option NodeEnum)
  intoClause : Option RangeVar
  targetList : List (Option NodeEnum)
  fromClause : List (Option NodeEnum)
  whereClause : Option NodeEnum
  groupClause : List (Option NodeEnum)
  groupDistinct : Bool
  havingClause : Option NodeEnum
  windowClause : List (Option NodeEnum)
  valuesLists : List (Option NodeEnum)
  sortClause : List (Option NodeEnum)
  limitOffset : Option NodeEnum
  limitCount : Option NodeEnum
  lockingClause : List (Option NodeEnum)
  withClause : Option WithClause
  op : SetOperation
  all : Bool
  larg : Option SelectStmt
  rarg : Option SelectStmt

structure InferClause where
  indexElems : List (Option NodeEnum)
  whereClause : Option NodeEnum
  conname : String

structure OnConflictClause where
  action : OnConflictAction
  infer : Option InferClause
  targetList : List (Option NodeEnum)
  whereClause : Option NodeEnum

structure InsertStmt where
  relation : Option RangeVar
  cols : List (Option NodeEnum)
  selectStmt : Option NodeEnum
  onConflictClause : Option OnConflictClause
  returningList : List (Option NodeEnum)
  withClause : Option WithClause

structure UpdateStmt where
  relation : Option RangeVar
  targetList : List (Option NodeEnum)
  whereClause : Option NodeEnum
  fromClause : List (Option NodeEnum)
  returningList : List (Option NodeEnum)
  withClause : Option WithClause

structure DeleteStmt where
  relation : Option RangeVar
  usingClause : List (Option NodeEnum)
  whereClause : Option NodeEnum
  returningList : List (Option NodeEnum)
  withClause : Option WithClause

end

abbrev Node := Option NodeEnum

inductive StatementKind
  | select | insert | update | delete | merge | txnBegin | txnCommit | txnRollback | txnOther
  | set | «show» | ddl | copy | prepareExec | empty | other
  deriving DecidableEq

def isWritableCte : Node → Bool
  | some (.commonTableExpr _ (some (.insertStmt _))) => true
  | some (.commonTableExpr _ (some (.updateStmt _))) => true
  | some (.commonTableExpr _ (some (.deleteStmt _))) => true
  | some (.commonTableExpr _ (some (.utility .merge _))) => true
  | _ => false

def hasWritableCte (s : SelectStmt) : Bool :=
  match s.withClause with
  | none => false
  | some w => w.ctes.any isWritableCte

def classifyUtility : UtilityKind → StatementKind
  | .merge => .merge
  | .variableSet => .set
  | .variableShow => .show
  | .copy => .copy
  | .prepare | .execute | .deallocate => .prepareExec
  | _ => .ddl

def classify : Node → StatementKind
  | none => .empty
  | some (.selectStmt s) =>
    if s.intoClause.isSome then .ddl else if hasWritableCte s then .other else .select
  | some (.insertStmt _) => .insert
  | some (.updateStmt _) => .update
  | some (.deleteStmt _) => .delete
  | some (.transactionStmt kind) =>
    match kind with
    | .begin | .start => .txnBegin
    | .commit => .txnCommit
    | .rollback => .txnRollback
    | _ => .txnOther
  | some (.utility kind _) => classifyUtility kind
  | some _ => .other

end PgShard
