import PgShard.Core.ShardFn
import PgShard.Repl.Message
import PgShard.Repl.Apply

namespace PgShard

inductive FilterError
  | noShardKeyColumn (name : String)
  | columnOutOfRange (index len : Nat)
  | unroutableCell
  | binaryCell
  | invalidUtf8
  | uncoercible (value : String) (ty : ScalarType)
  deriving DecidableEq

def shardKeyIndex (relation : Relation) (shardKeyColumn : String) : Except FilterError Nat :=
  match relation.columns.findIdx? (fun c => c.name == shardKeyColumn) with
  | some i => .ok i
  | none => .error (.noShardKeyColumn shardKeyColumn)

def textKeyspaceId (text : String) (keyType : ScalarType) (shardFn : ShardFunction) :
    Except FilterError KeyspaceId :=
  match keyType.coerce (.text text) with
  | some canonical => .ok (shardFn.keyspaceId canonical)
  | none => .error (.uncoercible text keyType)

def bytesKeyspaceId (bytes : List UInt8) (keyType : ScalarType) (shardFn : ShardFunction) :
    Except FilterError KeyspaceId :=
  match fromUtf8 bytes with
  | some text => textKeyspaceId text keyType shardFn
  | none => .error .invalidUtf8

def cellKeyspaceId (cell : TupleColumn) (keyType : ScalarType) (shardFn : ShardFunction) :
    Except FilterError KeyspaceId :=
  match cell with
  | .text bytes => bytesKeyspaceId bytes keyType shardFn
  | .binary _ => .error .binaryCell
  | .null | .unchangedToast => .error .unroutableCell

def tupleKeyspaceId (tuple : TupleData) (index : Nat) (keyType : ScalarType) (shardFn : ShardFunction) :
    Except FilterError KeyspaceId :=
  match tuple[index]? with
  | some cell => cellKeyspaceId cell keyType shardFn
  | none => .error (.columnOutOfRange index tuple.length)

def tupleInRange (tuple : TupleData) (index : Nat) (keyType : ScalarType) (shardFn : ShardFunction)
    (range : KeyRange) : Except FilterError Bool :=
  (tupleKeyspaceId tuple index keyType shardFn).map range.contains

abbrev Row := List (Option (List UInt8))

def Row.keyspaceId (row : Row) (index : Nat) (keyType : ScalarType) (shardFn : ShardFunction) :
    Except FilterError KeyspaceId :=
  match row[index]? with
  | some (some bytes) => bytesKeyspaceId bytes keyType shardFn
  | some none => .error .unroutableCell
  | none => .error (.columnOutOfRange index row.length)

def Row.inRange (row : Row) (index : Nat) (keyType : ScalarType) (shardFn : ShardFunction) (range : KeyRange) :
    Bool :=
  match row.keyspaceId index keyType shardFn with
  | .ok id => range.contains id
  | .error _ => false

theorem tupleInRange_eq_ok {tuple : TupleData} {row : Row} {index : Nat} {keyType : ScalarType}
    {shardFn : ShardFunction} {range : KeyRange} {kept : Bool}
    (decided : tupleInRange tuple index keyType shardFn range = .ok kept)
    (sameCell : ∀ bytes, tuple[index]? = some (.text bytes) → row[index]? = some (some bytes)) :
    row.inRange index keyType shardFn range = kept := by
  unfold tupleInRange tupleKeyspaceId at decided
  cases found : tuple[index]? with
  | none => simp [found, Except.map] at decided
  | some cell =>
    cases cell with
    | text bytes =>
      have stored := sameCell bytes found
      simp only [found, cellKeyspaceId] at decided
      simp only [Row.inRange, Row.keyspaceId, stored]
      cases hashed : bytesKeyspaceId bytes keyType shardFn with
      | error e => simp [hashed, Except.map] at decided
      | ok id => simpa [hashed, Except.map] using decided
    | null | unchangedToast | binary bytes => simp [found, cellKeyspaceId, Except.map] at decided

end PgShard
