import PgShard.Core.ShardFn
import PgShard.Lib.Codec
import PgShard.Lib.Quote
import PgShard.Repl.Apply

/-! The merge of an ordered scatter read (`merge.rs`). -/

namespace PgShard.Router

open Codec

structure UserError where
  code : String
  message : String
  deriving DecidableEq

inductive PgType
  | bool | int2 | int4 | int8 | float4 | float8
  | other (oid : Nat) (name : String)
  deriving DecidableEq

def PgType.display : PgType → String
  | .bool => "bool"
  | .int2 => "int2"
  | .int4 => "int4"
  | .int8 => "int8"
  | .float4 => "float4"
  | .float8 => "float8"
  | .other _ name => name

inductive FieldFormat
  | text | binary
  deriving DecidableEq

structure FieldInfo where
  name : String
  datatype : PgType
  format : FieldFormat
  deriving DecidableEq

/-- A row on the wire: for each field a big-endian `i32` length (`-1` is NULL) and that many bytes. -/
structure DataRow where
  data : List UInt8
  deriving DecidableEq

inductive SortColumn
  | name (name : String)
  | position (p : Nat)
  deriving DecidableEq

structure SortKey where
  column : SortColumn
  descending : Bool
  nullsFirst : Bool
  deriving DecidableEq

inductive SortKind
  | int | float | bool
  deriving DecidableEq

structure ResolvedKey where
  index : Nat
  kind : SortKind
  descending : Bool
  nullsFirst : Bool
  deriving DecidableEq

inductive SortValue (F : Type)
  | null
  | int (v : Int64)
  | float (v : F)
  | bool (v : Bool)

def sortKind : PgType → Option SortKind
  | .int2 | .int4 | .int8 => some .int
  | .float4 | .float8 => some .float
  | .bool => some .bool
  | .other _ _ => none

def keyColumn (schema : List FieldInfo) : SortColumn → Except UserError (Fin schema.length)
  | .position p =>
    if inside : 1 ≤ p ∧ p - 1 < schema.length then .ok ⟨p - 1, inside.2⟩
    else .error ⟨"0A000", "ORDER BY position " ++ toString p ++ " is out of range for the result"⟩
  | .name name =>
    match (List.finRange schema.length).filter fun i => (schema.get i).name == name with
    | [] => .error ⟨"0A000", "ORDER BY column " ++ Quote.debug name ++ " is not in the SELECT list; " ++
        "sorting by a non-output column is not supported in a scatter read"⟩
    | [first] => .ok first
    | _ => .error ⟨"0A000", "ORDER BY column " ++ Quote.debug name ++ " is ambiguous in the result"⟩

def resolveKey (schema : List FieldInfo) (key : SortKey) : Except UserError ResolvedKey := do
  let index ← keyColumn schema key.column
  let field := schema.get index
  if field.format ≠ .text then
    .error ⟨"0A000", "cross-shard ORDER BY on a binary-format column is not supported"⟩
  else
    match sortKind field.datatype with
    | none => .error ⟨"0A000", "cross-shard ORDER BY on a column of type " ++ field.datatype.display ++
        " is not supported yet"⟩
    | some kind => .ok ⟨index, kind, key.descending, key.nullsFirst⟩

def resolveKeys (schema : List FieldInfo) (keys : List SortKey) : Except UserError (List ResolvedKey) :=
  keys.mapM (resolveKey schema)

def malformedRow : UserError :=
  ⟨"XX000", "malformed DataRow from backend: field is truncated or out of range"⟩

def nextField (data : List UInt8) : Except UserError (Option (List UInt8) × List UInt8) :=
  if data.length < 4 then .error malformedRow
  else
    let len := i32FromBeBytes (data.take 4)
    let rest := data.drop 4
    if len = -1 then .ok (none, rest)
    else if len < -1 then .error malformedRow
    else if rest.length < len.toNat then .error malformedRow
    else .ok (some (rest.take len.toNat), rest.drop len.toNat)

def fieldBytes : Nat → List UInt8 → Except UserError (Option (List UInt8))
  | 0, data => do
    let (field, _) ← nextField data
    .ok field
  | idx + 1, data => do
    let (_, rest) ← nextField data
    fieldBytes idx rest

section

variable {F : Type} [LinearOrder F] [OrderTop F] (parseF64 : String → Option F)

def decode (bytes : Option (List UInt8)) (kind : SortKind) : Except UserError (SortValue F) :=
  match bytes with
  | none => .ok .null
  | some bytes =>
    match fromUtf8 bytes with
    | none => .error ⟨"XX000", "non-UTF-8 sort key from backend"⟩
    | some text =>
      match kind with
      | .int =>
        match parseI64 text.toList with
        | some v => .ok (.int v)
        | none => .error ⟨"XX000", "unparsable integer sort key " ++ Quote.debug text⟩
      | .float =>
        match parseF64 text with
        | some v => .ok (.float v)
        | none => .error ⟨"XX000", "unparsable float sort key " ++ Quote.debug text⟩
      | .bool =>
        if text = "t" then .ok (.bool true)
        else if text = "f" then .ok (.bool false)
        else .error ⟨"XX000", "unparsable boolean sort key " ++ Quote.debug text⟩

/-- Floats are a linear order with NaN on top; two NaNs are equal. -/
def isNan (x : F) : Bool :=
  decide (x = ⊤)

def cmpF64 (x y : F) : Ordering :=
  match isNan x, isNan y with
  | true, true => .eq
  | true, false => .gt
  | false, true => .lt
  | false, false => compare x y

/-- The placement of NULLs does not depend on the direction. -/
def cmpValue (a b : SortValue F) (descending nullsFirst : Bool) : Ordering :=
  let directed (present : Ordering) : Ordering := if descending then present.swap else present
  match a, b with
  | .null, .null => .eq
  | .null, _ => if nullsFirst then .lt else .gt
  | _, .null => if nullsFirst then .gt else .lt
  | .int x, .int y => directed (compare x y)
  | .bool x, .bool y => directed (compare x y)
  | .float x, .float y => directed (cmpF64 x y)
  -- The schema agrees across the shards, so two present values are of one kind.
  | _, _ => directed .eq

def cmpRows : List (SortValue F) → List (SortValue F) → List ResolvedKey → Ordering
  | a :: as, b :: bs, key :: keys => (cmpValue a b key.descending key.nullsFirst).then (cmpRows as bs keys)
  | _, _, _ => .eq

def decodeKeys (resolved : List ResolvedKey) (row : DataRow) : Except UserError (List (SortValue F)) :=
  resolved.mapM fun key => do
    let bytes ← fieldBytes key.index row.data
    decode parseF64 bytes key.kind

/-- All rows in the order of the keys. The sort is stable. -/
def mergeOrdered (schema : List FieldInfo) (rows : List DataRow) (keys : List SortKey) :
    Except UserError (List DataRow) := do
  let resolved ← resolveKeys schema keys
  let decoded ← rows.mapM fun row => do
    let values ← decodeKeys parseF64 resolved row
    .ok (values, row)
  .ok ((decoded.mergeSort fun a b => (cmpRows a.1 b.1 resolved).isLE).map Prod.snd)

end

end PgShard.Router
