import PgShard.Core.Keyspace

namespace PgShard

structure Uuid where
  bytes : List UInt8
  length_eq : bytes.length = 16
  deriving DecidableEq

/-- A shard-key value as it reaches the router: a literal, a bound parameter
or a stored cell. Integer widths widen to 64 bits before they are hashed. -/
inductive ScalarValue
  | int16 (v : Int16)
  | int32 (v : Int32)
  | int64 (v : Int64)
  | text (v : String)
  | uuid (v : Uuid)
  | bytea (v : List UInt8)
  deriving DecidableEq

inductive ScalarType
  | int
  | text
  | uuid
  | bytea
  deriving DecidableEq

def isWhitespace (c : Char) : Bool :=
  (9 ≤ c.val && c.val ≤ 13) || c.val == 0x20 || c.val == 0x85 || c.val == 0xA0 || c.val == 0x1680 ||
    (0x2000 ≤ c.val && c.val ≤ 0x200A) || c.val == 0x2028 || c.val == 0x2029 || c.val == 0x202F ||
    c.val == 0x205F || c.val == 0x3000

def trim (s : List Char) : List Char :=
  ((s.dropWhile isWhitespace).reverse.dropWhile isWhitespace).reverse

def digitValue (c : Char) : Option Nat :=
  if '0' ≤ c ∧ c ≤ '9' then some (c.toNat - '0'.toNat) else none

def parseDigits : List Char → Option Nat
  | [] => none
  | cs => cs.foldlM (fun acc c => (digitValue c).map (acc * 10 + ·)) 0

def parseI64 (s : List Char) : Option Int64 := do
  let v : Int ← match s with
    | '-' :: ds => (parseDigits ds).map (fun n => -(n : Int))
    | '+' :: ds => (parseDigits ds).map (fun n => (n : Int))
    | ds => (parseDigits ds).map (fun n => (n : Int))
  if -2 ^ 63 ≤ v ∧ v < 2 ^ 63 then some (Int64.ofInt v) else none

def coerceInt (s : String) : Option Int64 :=
  parseI64 (trim s.toList)

def hexValue (c : Char) : Option UInt8 :=
  if '0' ≤ c ∧ c ≤ '9' then some (UInt8.ofNat (c.toNat - '0'.toNat))
  else if 'a' ≤ c ∧ c ≤ 'f' then some (UInt8.ofNat (c.toNat - 'a'.toNat + 10))
  else if 'A' ≤ c ∧ c ≤ 'F' then some (UInt8.ofNat (c.toNat - 'A'.toNat + 10))
  else none

def hexBytes : List Char → Option (List UInt8)
  | [] => some []
  | [_] => none
  | hi :: lo :: rest => do
    let h ← hexValue hi
    let l ← hexValue lo
    let bytes ← hexBytes rest
    some ((h * 16 + l) :: bytes)

def coerceUuid (s : String) : Option Uuid := do
  let t := trim s.toList
  let t ← match t.head? == some '{', t.getLast? == some '}' with
    | true, true => some (t.tail.dropLast)
    | false, false => some t
    | _, _ => none
  let hex := t.filter (· ≠ '-')
  let bytes ← hexBytes hex
  if sized : bytes.length = 16 then some ⟨bytes, sized⟩ else none

def coerceBytea (s : String) : Option (List UInt8) :=
  match s.toList with
  | '\\' :: 'x' :: hex => hexBytes hex
  | _ => none

def ScalarType.coerce : ScalarType → ScalarValue → Option ScalarValue
  | .int, .int16 v => some (.int64 v.toInt64)
  | .int, .int32 v => some (.int64 v.toInt64)
  | .int, .int64 v => some (.int64 v)
  | .int, .text s => (coerceInt s).map .int64
  | .text, .text s => some (.text s)
  | .uuid, .text s => (coerceUuid s).map .uuid
  | .uuid, .uuid v => some (.uuid v)
  | .bytea, .text s => (coerceBytea s).map .bytea
  | .bytea, .bytea v => some (.bytea v)
  | _, _ => none

/-- The value that is hashed for a column: coerced to its declared type, or
taken as written when the topology declares none. -/
def canonicalKey (keyType : Option ScalarType) (v : ScalarValue) : Option ScalarValue :=
  match keyType with
  | some t => t.coerce v
  | none => some v

def i64BeBytes (v : Int64) : List UInt8 :=
  (List.range 8).map fun i => UInt8.ofNat (v.toUInt64.toNat >>> (8 * (7 - i)))

def utf8Bytes (s : String) : List UInt8 :=
  s.toList.flatMap String.utf8EncodeChar

/-- The canonical byte encoding `xxhash64_v1` is computed over. -/
def ScalarValue.keyBytes : ScalarValue → List UInt8
  | .int16 v => i64BeBytes v.toInt64
  | .int32 v => i64BeBytes v.toInt64
  | .int64 v => i64BeBytes v
  | .text v => utf8Bytes v
  | .uuid v => v.bytes
  | .bytea v => v

inductive ShardFnError
  | unknown (name : String)
  deriving DecidableEq

structure ShardFunction where
  keyspaceId : ScalarValue → KeyspaceId

/-- xxHash64 with seed 0. It comes from a library, so the hash of a byte
string is a parameter of everything that routes. -/
structure Xxh64 where
  hash : List UInt8 → KeyspaceId

def Xxh64.v1 (xxh64 : Xxh64) : ShardFunction := ⟨fun key => xxh64.hash key.keyBytes⟩

def shardFunction (xxh64 : Xxh64) (name : String) : Except ShardFnError ShardFunction :=
  if name = "xxhash64_v1" then .ok xxh64.v1 else .error (.unknown name)

theorem shardFunction_ok_iff {xxh64 : Xxh64} {name : String} {f : ShardFunction} :
    shardFunction xxh64 name = .ok f ↔ name = "xxhash64_v1" ∧ f = xxh64.v1 := by
  unfold shardFunction
  split
  · rename_i known
    simp [known, eq_comm]
  · rename_i unknown
    simp [unknown]

end PgShard
