import PgShard.Repl.Copy
import PgShard.Repl.SourceRows

/-! The snapshot copy decides each row as the stream's filter does, whatever the chunks of
the COPY stream. -/

namespace PgShard

section Agree

variable {keyIndex : Nat} {spec : CopySpec} {shardFn : ShardFunction} {row : Row} {rows : List Row}

def Row.streamed (row : Row) (keyIndex : Nat) (spec : CopySpec) (shardFn : ShardFunction) : Except FilterError Bool :=
  tupleInRange (row.map wire) keyIndex spec.shardKeyType shardFn spec.targetRange

theorem rowInRange_eq_streamed (bound : keyIndex < row.length) :
    rowInRange (copyRow row) keyIndex spec shardFn = (row.streamed keyIndex spec shardFn).mapError .filter := by
  rw [rowInRange_copyRow keyIndex spec shardFn bound]
  simp only [Row.streamed, tupleInRange, tupleKeyspaceId, Row.keyspaceId, List.getElem?_map,
    List.getElem?_eq_getElem bound, Option.map_some]
  cases row[keyIndex] with
  | none => rfl
  | some bytes =>
    simp only [wire, cellKeyspaceId]
    cases bytesKeyspaceId bytes spec.shardKeyType shardFn <;> rfl

def streamedRows (keyIndex : Nat) (spec : CopySpec) (shardFn : ShardFunction) (rows : List Row) : List Row :=
  rows.filter fun row => (row.streamed keyIndex spec shardFn).toOption == some true

theorem drainRows_decided {before : List (List UInt8)} {rest : List UInt8} (bound : ∀ row ∈ rows, keyIndex < row.length)
    (decided : ∀ row ∈ rows, ∃ kept, row.streamed keyIndex spec shardFn = .ok kept) :
    drainRows (fun row => rowInRange row keyIndex spec shardFn) [] before ((rows.map copyRow).flatten ++ rest) =
      drainRows (fun row => rowInRange row keyIndex spec shardFn) []
        (before ++ (streamedRows keyIndex spec shardFn rows).map copyRow) rest := by
  induction rows generalizing before with
  | nil => simp [streamedRows]
  | cons row rows ih =>
    rw [List.forall_mem_cons] at bound decided
    obtain ⟨⟨kept, first⟩, later⟩ := decided
    rw [List.map_cons, List.flatten_cons, List.append_assoc, copyRow, drainRows_row _ _ _ (copyRow_noNewline row), ← copyRow,
      rowInRange_eq_streamed bound.1, first]
    simp only [Except.mapError, Except.bind]
    rw [ih bound.2 later]
    cases kept <;> simp [streamedRows, first, Except.toOption]

theorem streamFiltered_decided {chunks : List (List UInt8)} (encoded : chunks.flatten = (rows.map copyRow).flatten)
    (bound : ∀ row ∈ rows, keyIndex < row.length)
    (decided : ∀ row ∈ rows, ∃ kept, row.streamed keyIndex spec shardFn = .ok kept) :
    streamFiltered chunks keyIndex spec shardFn =
      (⟨(streamedRows keyIndex spec shardFn rows).map copyRow, true⟩, .ok (streamedRows keyIndex spec shardFn rows).length) := by
  have drained := @drainRows_decided keyIndex spec shardFn rows [] [] bound decided
  rw [List.append_nil] at drained
  rw [streamFiltered, streamChunks_eq_drainRows chunks (by simp), encoded, drained]
  simp [drainRows]

theorem streamFiltered_refused {chunks : List (List UInt8)} {before after : List Row} {e : FilterError}
    (encoded : chunks.flatten = ((before ++ row :: after).map copyRow).flatten)
    (bound : ∀ r ∈ before ++ row :: after, keyIndex < r.length)
    (decided : ∀ r ∈ before, ∃ kept, r.streamed keyIndex spec shardFn = .ok kept)
    (refused : row.streamed keyIndex spec shardFn = .error e) :
    (streamFiltered chunks keyIndex spec shardFn).1.finished = false ∧
      (streamFiltered chunks keyIndex spec shardFn).2 = .error (.filter e) := by
  have boundBefore : ∀ r ∈ before, keyIndex < r.length := fun r member => bound r (List.mem_append_left _ member)
  have boundRow : keyIndex < row.length := bound row (by simp)
  rw [List.map_append, List.flatten_append, List.map_cons, List.flatten_cons] at encoded
  rw [streamFiltered, streamChunks_eq_drainRows chunks (by simp), encoded, drainRows_decided boundBefore decided,
    copyRow, drainRows_row _ _ _ (copyRow_noNewline row), ← copyRow, rowInRange_eq_streamed boundRow, refused]
  exact ⟨rfl, rfl⟩

theorem streamFiltered_unterminated {chunks : List (List UInt8)} {bytes : List UInt8} {b : UInt8}
    (ends : chunks.flatten = bytes ++ [b]) (open' : b ≠ 10) :
    (streamFiltered chunks keyIndex spec shardFn).1.finished = false ∧
      ∃ e, (streamFiltered chunks keyIndex spec shardFn).2 = .error e := by
  rw [streamFiltered, streamChunks_eq_drainRows chunks (by simp), ends, drainRows_append]
  cases drainRows (fun row => rowInRange row keyIndex spec shardFn) [] [] bytes with
  | error e => exact ⟨rfl, e.1, rfl⟩
  | ok state =>
    refine ⟨?_, .malformed "COPY stream ended without a final row terminator", ?_⟩ <;>
      simp [Except.bind, drainRows, open']

end Agree

/-- The snapshot copy and the stream filter agree on the rows of a table. If the filter
decides every row, the copy sends exactly the encoded rows that it keeps, in order, and
finishes; otherwise it fails with the filter's error for the first row it refuses and is
not finished. A stream that does not end with a row's newline always fails. -/
theorem copy_agrees_with_stream (width : Nat) (key : Fin width) (spec : CopySpec) (shardFn : ShardFunction) :
    (∀ (rows : List Row) (chunks : List (List UInt8)), (∀ row ∈ rows, row.length = width) →
      chunks.flatten = (rows.map copyRow).flatten →
      ((∀ row ∈ rows, ∃ kept, tupleInRange (row.map wire) key spec.shardKeyType shardFn spec.targetRange = .ok kept) →
        ∃ kept : List Row, kept = rows.filter (fun row =>
            (tupleInRange (row.map wire) key spec.shardKeyType shardFn spec.targetRange).toOption == some true) ∧
          streamFiltered chunks key spec shardFn = (⟨kept.map copyRow, true⟩, .ok kept.length)) ∧
      ∀ before row after e, rows = before ++ row :: after →
        (∀ r ∈ before, ∃ kept, tupleInRange (r.map wire) key spec.shardKeyType shardFn spec.targetRange = .ok kept) →
        tupleInRange (row.map wire) key spec.shardKeyType shardFn spec.targetRange = .error e →
          (streamFiltered chunks key spec shardFn).1.finished = false ∧
            (streamFiltered chunks key spec shardFn).2 = .error (.filter e)) ∧
    ∀ (chunks : List (List UInt8)) (bytes : List UInt8) (b : UInt8), chunks.flatten = bytes ++ [b] → b ≠ 10 →
      (streamFiltered chunks key spec shardFn).1.finished = false ∧ ∃ e, (streamFiltered chunks key spec shardFn).2 = .error e := by
  refine ⟨fun rows chunks shaped encoded => ⟨fun decided => ?_, ?_⟩, fun chunks bytes b ends open' => ?_⟩
  · have bound : ∀ row ∈ rows, key.val < row.length := fun row member => (shaped row member).symm ▸ key.isLt
    exact ⟨_, rfl, streamFiltered_decided encoded bound decided⟩
  · rintro before row after e rfl decided refused
    have bound : ∀ r ∈ before ++ row :: after, key.val < r.length := fun r member => (shaped r member).symm ▸ key.isLt
    exact streamFiltered_refused encoded bound decided refused
  · exact streamFiltered_unterminated ends open'

def keyedRows : List Row :=
  [[some [65, 9], some [51]], [some [66], some [49, 50]]]

def lowKeys : CopySpec :=
  ⟨"public", "orders", ["note", "id"], "id", .int, ⟨0, some 8, by rintro e ⟨⟩; decide⟩⟩

def plainKeys : ShardFunction :=
  ⟨fun
    | .int64 v => Fin.ofNat _ v.toUInt64.toNat
    | _ => 0⟩

theorem copy_agrees_with_stream_keyed :
    streamFiltered [[65, 92], [116, 9, 51, 10, 66], [9, 49, 50, 10]] 1 lowKeys plainKeys =
      (⟨[[65, 92, 116, 9, 51, 10]], true⟩, .ok 1) := by
  have decided : ∀ row ∈ keyedRows, ∃ kept,
      tupleInRange (row.map wire) 1 lowKeys.shardKeyType plainKeys lowKeys.targetRange = .ok kept := by
    simp only [keyedRows, List.forall_mem_cons, List.not_mem_nil, false_implies, implies_true, and_true]
    exact ⟨⟨true, by decide +kernel⟩, ⟨false, by decide +kernel⟩⟩
  obtain ⟨kept, filtered, copied⟩ := ((copy_agrees_with_stream 2 1 lowKeys plainKeys).1 keyedRows
    [[65, 92], [116, 9, 51, 10, 66], [9, 49, 50, 10]] (by decide) (by decide)).1 decided
  have one : kept = [[some [65, 9], some [51]]] := filtered.trans (by decide +kernel)
  rw [one] at copied
  exact copied

end PgShard
