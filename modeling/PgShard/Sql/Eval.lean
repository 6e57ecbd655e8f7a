import PgShard.Lib.ThreeValued
import PgShard.Plan.Extract

namespace PgShard

/-- Why PostgreSQL refuses or aborts a statement instead of matching a row. -/
inductive SqlError
  | ambiguousColumn (name : String)
  | missingFromItem
  | undefinedParameter
  | malformed
  | other
  deriving DecidableEq

/-- A table in a FROM clause together with its columns as the backend's
catalog lists them. PostgreSQL refuses an alias list longer than the table. -/
structure FromTable where
  rangeVar : RangeVar
  columns : List String
  keyIndex : Nat
  keyBound : keyIndex < columns.length
  distinct : columns.Nodup
  aliasFits : ((rangeVar.alias.map Alias.colnames).getD []).length ≤ columns.length

namespace FromTable

def aliasColumns (t : FromTable) : List String := (t.rangeVar.alias.map Alias.colnames).getD []

def visibleColumns (t : FromTable) : List String := t.aliasColumns ++ t.columns.drop t.aliasColumns.length

def answersTo (t : FromTable) (qualifier : List Node) : Bool :=
  match qualifier, t.rangeVar.alias with
  | [], _ => true
  | [some (.string a)], some al => a == al.aliasname
  | [some (.string a)], none => a == t.rangeVar.relname
  | [some (.string s), some (.string a)], none =>
    s == (rangeVarTable t.rangeVar).schema && a == t.rangeVar.relname
  | [some (.string _), some (.string s), some (.string a)], none =>
    s == (rangeVarTable t.rangeVar).schema && a == t.rangeVar.relname
  | _, _ => false

inductive Resolved
  | column (i : Nat)
  | ambiguous
  | notAColumn
  deriving DecidableEq

def resolve (t : FromTable) (name : String) : Resolved :=
  if 1 < t.visibleColumns.count name then .ambiguous
  else match t.visibleColumns.idxOf? name with
    | some i => .column i
    | none => .notAColumn

def refersTo (t : FromTable) (i : Nat) : NodeEnum → Prop
  | .columnRef fields =>
    ∃ name, columnName fields = some name ∧ t.answersTo fields.dropLast = true ∧ t.resolve name = .column i
  | _ => False

theorem visibleColumns_length (t : FromTable) : t.visibleColumns.length = t.columns.length := by
  have fits := t.aliasFits
  simp only [visibleColumns, aliasColumns, List.length_append, List.length_drop]
  omega

end FromTable

/-- PostgreSQL as one execution of a statement sees it: the values it computes
with, its `=`, and every other expression. A name that is no column (a system
column, a whole-row reference, a function in attribute notation) is evaluated
by `scalar` like any other expression the planner does not read. -/
structure Backend where
  Datum : Type
  shardKey : Datum → Option ScalarValue
  literal : ConstVal → Datum
  bound : ScalarValue → Datum
  equals : NodeEnum → NodeEnum → Datum → Datum → Except SqlError (Option Bool)
  scalar : NodeEnum → (Nat → Option Datum) → Except SqlError (Option Datum)
  predicate : NodeEnum → (Nat → Option Datum) → Except SqlError (Option Bool)

/-- A stored row, by column number; `none` is NULL. -/
abbrev Backend.Row (b : Backend) := Nat → Option b.Datum

def boundValue (params : List ScalarValue) (n : Nat) : Option ScalarValue :=
  if n = 0 then none else params[n - 1]?

section

variable (b : Backend) (t : FromTable) (params : List ScalarValue) (row : b.Row)

def evalColumn (fields : List Node) : Except SqlError (Option b.Datum) :=
  match columnName fields with
  | none => b.scalar (.columnRef fields) row
  | some name =>
    if t.answersTo fields.dropLast then
      match t.resolve name with
      | .column i => .ok (row i)
      | .ambiguous => .error (.ambiguousColumn name)
      | .notAColumn => b.scalar (.columnRef fields) row
    else .error .missingFromItem

def evalScalar : NodeEnum → Except SqlError (Option b.Datum)
  | .aConst c => .ok (if c.isnull then none else c.val.map b.literal)
  | .paramRef number =>
    match boundValue params number.toNatClampNeg with
    | some v => .ok (some (b.bound v))
    | none => .error .undefinedParameter
  | .columnRef fields => evalColumn b t row fields
  | n => b.scalar n row

def evalEquals (l r : NodeEnum) : Except SqlError (Option Bool) := do
  let x ← evalScalar b t params row l
  let y ← evalScalar b t params row r
  match x, y with
  | some d, some e => b.equals l r d e
  | _, _ => .ok none

def evalIn (l : NodeEnum) : List Node → Except SqlError (List (Option Bool))
  | [] => .ok []
  | some item :: rest => do
    let p ← evalEquals b t params row l item
    let ps ← evalIn l rest
    .ok (p :: ps)
  | none :: _ => .error .malformed

def evalAExpr (e : AExpr) : Except SqlError (Option Bool) :=
  match e.lexpr, e.rexpr with
  | some l, some r =>
    if isEqOperator e.name then
      match e.kind, r with
      | .op, r => evalEquals b t params row l r
      | .in, .list items => (evalIn b t params row l items).map ThreeValued.any
      | _, _ => b.predicate (.aExpr e) row
    else b.predicate (.aExpr e) row
  | _, _ => b.predicate (.aExpr e) row

mutual

/-- The value of a boolean expression on one row. Name errors are raised by
parse analysis, so an error anywhere is an error of the whole expression. -/
def evalBool : NodeEnum → Except SqlError (Option Bool)
  | .boolExpr .and args => (evalBoolArgs args).map ThreeValued.all
  | .boolExpr .or args => (evalBoolArgs args).map ThreeValued.any
  | .boolExpr .not args => (evalBoolArgs args).map (fun ps => ThreeValued.not (ThreeValued.all ps))
  | .boolExpr .undefined _ => .error .malformed
  | .aExpr e => evalAExpr b t params row e
  | n => b.predicate n row

def evalBoolArgs : List (Option NodeEnum) → Except SqlError (List (Option Bool))
  | [] => .ok []
  | some arg :: rest => do
    let p ← evalBool arg
    let ps ← evalBoolArgs rest
    .ok (p :: ps)
  | none :: _ => .error .malformed

end

def satisfies (whereClause : Node) : Prop :=
  match whereClause with
  | none => True
  | some node => evalBool b t params row node = .ok (some true)

def rowKey (keyType : Option ScalarType) : Option ScalarValue :=
  ((row t.keyIndex).bind b.shardKey).bind (canonicalKey keyType)

end

/-- The value a readable operand has, when it has one. -/
def KeyVal.value (params : List ScalarValue) : KeyVal → Option ScalarValue
  | .const v => some v
  | .param n => boundValue params n

/-- Equality on the key column agrees with equality of coerced key values: a
key that equals a readable operand has the operand's coerced value. -/
structure Backend.KeyEquality (b : Backend) (t : FromTable) (params : List ScalarValue)
    (keyType : Option ScalarType) : Prop where
  left : ∀ {column operand : NodeEnum} {kv : KeyVal} {v key : ScalarValue} {row : b.Row},
    t.refersTo t.keyIndex column → keyVal operand = some kv → kv.value params = some v →
    canonicalKey keyType v = some key → evalEquals b t params row column operand = .ok (some true) →
    rowKey b t row keyType = some key
  right : ∀ {column operand : NodeEnum} {kv : KeyVal} {v key : ScalarValue} {row : b.Row},
    t.refersTo t.keyIndex column → keyVal operand = some kv → kv.value params = some v →
    canonicalKey keyType v = some key → evalEquals b t params row operand column = .ok (some true) →
    rowKey b t row keyType = some key

end PgShard
