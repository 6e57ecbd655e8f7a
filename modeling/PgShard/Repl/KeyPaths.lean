import PgShard.Core.KeyText
import PgShard.Plan.Planner
import PgShard.Repl.CopyAgree

/-! One stored key value has one keyspace id: as a literal, as a bound parameter, in a snapshot's COPY and in the
replication stream. -/

namespace PgShard

/-- A literal or a bound value that PostgreSQL stores as the datum. -/
inductive ScalarValue.Stores : ScalarValue → KeyDatum → Prop
  | read {s : String} {v : KeyDatum} (own : PgInput.read v.type s = some v) : Stores (.text s) v
  | int16 (v : Int16) : Stores (.int16 v) (.int v.toInt64)
  | int32 (v : Int32) : Stores (.int32 v) (.int v.toInt64)
  | same (v : KeyDatum) : Stores v.scalar v

section Paths

variable {sv w : ScalarValue} {v : KeyDatum} {shards : ShardCatalog} {row : Row} {index : Nat}

theorem ScalarValue.Stores.coerce_eq (stores : sv.Stores v) (accepted : v.type.coerce sv = some w) : w = v.scalar := by
  cases stores with
  | read own => exact PgInput.read_coerce own accepted
  | int16 | int32 =>
    cases accepted
    rfl
  | same =>
    cases v <;> cases accepted
    all_goals rfl

theorem routeValues_const (xxh64 : Xxh64) {keyType : Option ScalarType} {id : KeyspaceId}
    (hashed : keyId xxh64.v1 keyType sv = some id) :
    routeValues xxh64 [.const sv] keyType "xxhash64_v1" rfl shards = .shards [shards.route id] := by
  change routeConsts (expectShardFunction xxh64 "xxhash64_v1" rfl) keyType shards [] [.const sv] = _
  simp [routeConsts, hashed, insertShard]

theorem resolveBound_single (xxh64 : Xxh64) {keyType : Option ScalarType} {id : KeyspaceId} (write : Bool)
    (hashed : keyId xxh64.v1 keyType sv = some id) :
    resolveBound xxh64 ⟨"xxhash64_v1", keyType, [1], write⟩ [sv] shards = .singleShard (shards.route id) := by
  have known : shardFunction xxh64 "xxhash64_v1" = .ok xxh64.v1 := shardFunction_ok_iff.mpr ⟨rfl, rfl⟩
  simp [resolveBound, known, resolveIndices, hashed, insertShard]

theorem fromUtf8_iff {bytes : List UInt8} {s : String} : fromUtf8 bytes = some s ↔ bytes = utf8Bytes s := by
  have encoded : s.toByteArray = ⟨(utf8Bytes s).toArray⟩ := by
    apply ByteArray.ext
    rw [← String.utf8Encode_toList, List.utf8Encode, List.data_toByteArray]
    rfl
  unfold fromUtf8 String.fromUTF8?
  constructor
  · intro decoded
    split at decoded
    · cases decoded
      exact congrArg (fun bytes => bytes.data.toList) encoded
    · cases decoded
  · rintro rfl
    rw [← encoded, dif_pos s.isValidUTF8]
    rfl

theorem bytesKeyspaceId_print (v : KeyDatum) (f : ShardFunction) :
    bytesKeyspaceId (utf8Bytes v.print) v.type f = .ok (f.keyspaceId v.scalar) := by
  rw [bytesKeyspaceId, fromUtf8_iff.mpr rfl]
  simp only [textKeyspaceId, v.coerce_print]

theorem Row.keyspaceId_print (f : ShardFunction) (stored : row[index]? = some (some (utf8Bytes v.print))) :
    row.keyspaceId index v.type f = .ok (f.keyspaceId v.scalar) := by
  rw [Row.keyspaceId, stored]
  exact bytesKeyspaceId_print v f

theorem tupleKeyspaceId_print (f : ShardFunction) (stored : row[index]? = some (some (utf8Bytes v.print))) :
    tupleKeyspaceId (row.map wire) index v.type f = .ok (f.keyspaceId v.scalar) := by
  rw [tupleKeyspaceId, List.getElem?_map, stored]
  exact bytesKeyspaceId_print v f

theorem rowInRange_print (f : ShardFunction) {spec : CopySpec} (typed : spec.shardKeyType = v.type)
    (stored : row[index]? = some (some (utf8Bytes v.print))) :
    rowInRange (copyRow row) index spec f = .ok (spec.targetRange.contains (f.keyspaceId v.scalar)) := by
  obtain ⟨bound, _⟩ := List.getElem?_eq_some_iff.mp stored
  rw [rowInRange_copyRow index spec f bound, typed, Row.keyspaceId_print f stored]

end Paths

/-- Coercion reads back what PostgreSQL prints, agrees with its input functions and is idempotent; a stored value
has one keyspace id on every path. -/
theorem coercion_faithful (xxh64 : Xxh64) :
    (∀ v : KeyDatum, v.type.coerce (.text v.print) = some v.scalar) ∧
    (∀ (t : ScalarType) (s : String) (v : KeyDatum) (w : ScalarValue),
      PgInput.read t s = some v → t.coerce (.text s) = some w → w = v.scalar) ∧
    (∀ (t : ScalarType) (v w : ScalarValue), t.coerce v = some w → t.coerce w = some w) ∧
    ∀ v : KeyDatum, ∃ id : KeyspaceId,
      (∀ (sv : ScalarValue) (shards : ShardCatalog), sv.Stores v → (v.type.coerce sv).isSome = true →
        routeValues xxh64 [.const sv] (some v.type) "xxhash64_v1" rfl shards = .shards [shards.route id] ∧
        ∀ write, resolveBound xxh64 ⟨"xxhash64_v1", some v.type, [1], write⟩ [sv] shards =
          .singleShard (shards.route id)) ∧
      ∀ (row : Row) (index : Nat), row[index]? = some (some (utf8Bytes v.print)) →
        tupleKeyspaceId (row.map wire) index v.type xxh64.v1 = .ok id ∧
        ∀ spec : CopySpec, spec.shardKeyType = v.type →
          rowInRange (copyRow row) index spec xxh64.v1 = .ok (spec.targetRange.contains id) := by
  refine ⟨KeyDatum.coerce_print, fun t s v w => PgInput.read_coerce, fun t v w => coerce_coerced, fun v =>
    ⟨xxh64.v1.keyspaceId v.scalar, fun sv shards stores accepted => ?_, fun row index stored => ?_⟩⟩
  · obtain ⟨w, coerced⟩ := Option.isSome_iff_exists.mp accepted
    have hashed : keyId xxh64.v1 (some v.type) sv = some (xxh64.v1.keyspaceId v.scalar) := by
      rw [keyId, canonicalKey, coerced, stores.coerce_eq coerced]
      rfl
    exact ⟨routeValues_const xxh64 hashed, fun write => resolveBound_single xxh64 write hashed⟩
  · exact ⟨tupleKeyspaceId_print _ stored, fun spec typed => rowInRange_print _ typed stored⟩

end PgShard
