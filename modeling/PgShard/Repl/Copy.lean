import PgShard.Lib.Checked
import PgShard.Repl.CopyText

namespace PgShard

/-- Why a filtered snapshot copy failed. Errors of the two databases end the
copy like the others and carry nothing that is read. -/
inductive CopyError
  | source
  | target
  | filter (e : FilterError)
  | noShardKeyColumn (name : String)
  | malformed (reason : String)
  | badSnapshot (snapshot : String)
  deriving DecidableEq

structure CopySpec where
  schema : String
  table : String
  columns : List String
  shardKeyColumn : String
  shardKeyType : ScalarType
  targetRange : KeyRange

def rowInRange (row : List UInt8) (keyIndex : Nat) (spec : CopySpec) (shardFn : ShardFunction) :
    Except CopyError Bool :=
  let line := if row.getLast? = some 10 then row.dropLast else row
  match (line.splitOn 9)[keyIndex]? with
  | none => .error (.malformed ("row has fewer than " ++ toString (keyIndex + 1) ++ " columns"))
  | some field =>
    match copyFieldUnescape field with
    | none => .error (.filter .unroutableCell)
    | some value =>
      match bytesKeyspaceId value spec.shardKeyType shardFn with
      | .error e => .error (.filter e)
      | .ok id => .ok (spec.targetRange.contains id)

/-- The target's COPY: the rows it was sent, and whether it was finished. -/
structure CopySink where
  sent : List (List UInt8) := []
  finished : Bool := false
  deriving DecidableEq

/-- The inner loop of `stream_filtered`: cut the buffer at each newline and
send the rows that are kept. `row` is the part of the buffer before the next
newline; what is left of it at the end stays buffered. An error comes with the
rows that were sent by then. -/
def drainRows (keep : List UInt8 → Except CopyError Bool) (row : List UInt8) (sent : List (List UInt8)) :
    List UInt8 → Except (CopyError × List (List UInt8)) (List UInt8 × List (List UInt8))
  | [] => .ok (row, sent)
  | b :: rest =>
    if b = 10 then do
      let kept ← (keep (row ++ [b])).mapError (·, sent)
      drainRows keep [] (if kept then sent ++ [row ++ [b]] else sent) rest
    else drainRows keep (row ++ [b]) sent rest

def streamChunks (keep : List UInt8 → Except CopyError Bool) (buf : List UInt8) (sent : List (List UInt8)) :
    List (List UInt8) → Except (CopyError × List (List UInt8)) (List UInt8 × List (List UInt8))
  | [] => .ok (buf, sent)
  | chunk :: rest => do
    let (left, sent) ← drainRows keep [] sent (buf ++ chunk)
    streamChunks keep left sent rest

def streamFiltered (chunks : List (List UInt8)) (keyIndex : Nat) (spec : CopySpec) (shardFn : ShardFunction) :
    CopySink × Except CopyError Nat :=
  match streamChunks (fun row => rowInRange row keyIndex spec shardFn) [] [] chunks with
  | .error (e, sent) => (⟨sent, false⟩, .error e)
  | .ok (left, sent) =>
    if left.isEmpty then (⟨sent, true⟩, .ok sent.length)
    else (⟨sent, false⟩, .error (.malformed "COPY stream ended without a final row terminator"))

def isHexDigit (c : Char) : Bool := (hexValue c).isSome

/-- `copy_filtered` on a source that streams `chunks`: what the target's COPY
receives before the copy commits. -/
def copyFiltered (snapshot : String) (chunks : List (List UInt8)) (spec : CopySpec) (shardFn : ShardFunction) :
    Except CopyError (List (List UInt8)) :=
  if snapshot = "" ∨ ¬ snapshot.toList.all (fun c => isHexDigit c || c == '-') then .error (.badSnapshot snapshot)
  else match spec.columns.findIdx? (· == spec.shardKeyColumn) with
    | none => .error (.noShardKeyColumn spec.shardKeyColumn)
    | some keyIndex =>
      let (sink, copied) := streamFiltered chunks keyIndex spec shardFn
      copied.map fun _ => sink.sent

section

variable {keep : List UInt8 → Except CopyError Bool}

theorem drainRows_append (row : List UInt8) (sent : List (List UInt8)) (first second : List UInt8) :
    drainRows keep row sent (first ++ second) =
      (drainRows keep row sent first).bind fun state => drainRows keep state.1 state.2 second := by
  induction first generalizing row sent with
  | nil => rfl
  | cons b rest ih =>
    simp only [List.cons_append, drainRows]
    split
    · cases keep (row ++ [b]) with
      | error e => rfl
      | ok kept => exact ih [] _
    · exact ih _ sent

theorem drainRows_plain (row plain : List UInt8) (sent : List (List UInt8)) (noNewline : 10 ∉ plain) :
    drainRows keep row sent plain = .ok (row ++ plain, sent) := by
  induction plain generalizing row with
  | nil => simp [drainRows]
  | cons b rest ih =>
    have first : b ≠ 10 := fun same => noNewline (by simp [same])
    have later : 10 ∉ rest := fun member => noNewline (List.mem_cons_of_mem _ member)
    simp only [drainRows, if_neg first]
    rw [ih _ later, List.append_assoc]
    rfl

theorem drainRows_left {row left bytes : List UInt8} {sent sent' : List (List UInt8)} (noNewline : 10 ∉ row)
    (run : drainRows keep row sent bytes = .ok (left, sent')) : 10 ∉ left := by
  induction bytes generalizing row sent with
  | nil =>
    cases run
    exact noNewline
  | cons b rest ih =>
    simp only [drainRows] at run
    split at run
    · obtain ⟨kept, -, run⟩ := Checked.bind_ok run
      exact ih (by simp) run
    · rename_i other
      refine ih ?_ run
      simp only [List.mem_append, List.mem_singleton, not_or]
      exact ⟨noNewline, fun same => other same.symm⟩

theorem streamChunks_eq_drainRows {buf : List UInt8} {sent : List (List UInt8)} (chunks : List (List UInt8))
    (noNewline : 10 ∉ buf) :
    streamChunks keep buf sent chunks = drainRows keep buf sent chunks.flatten := by
  induction chunks generalizing buf sent with
  | nil => rfl
  | cons chunk rest ih =>
    have merged : drainRows keep [] sent (buf ++ chunk) = drainRows keep buf sent chunk := by
      rw [drainRows_append, drainRows_plain [] buf sent noNewline]
      rfl
    rw [streamChunks, merged, List.flatten_cons, drainRows_append]
    cases run : drainRows keep buf sent chunk with
    | error e => rfl
    | ok state =>
      obtain ⟨left, sent'⟩ := state
      exact ih (drainRows_left noNewline run)

theorem drainRows_row (line rest : List UInt8) (sent : List (List UInt8)) (noNewline : 10 ∉ line) :
    drainRows keep [] sent (line ++ [10] ++ rest) =
      ((keep (line ++ [10])).mapError (·, sent)).bind fun kept =>
        drainRows keep [] (if kept then sent ++ [line ++ [10]] else sent) rest := by
  rw [List.append_assoc, drainRows_append, drainRows_plain [] line sent noNewline]
  simp only [List.nil_append, List.singleton_append, Except.bind, drainRows, if_true]
  rfl

end

theorem not_mem_intercalate {x sep : UInt8} (apart : x ≠ sep) {fields : List (List UInt8)}
    (plain : ∀ field ∈ fields, x ∉ field) : x ∉ [sep].intercalate fields := by
  induction fields with
  | nil => simp [List.intercalate]
  | cons field rest ih =>
    have first := plain field List.mem_cons_self
    have others := ih fun f member => plain f (List.mem_cons_of_mem _ member)
    cases rest with
    | nil => simpa [List.intercalate] using first
    | cons next rest =>
      rw [List.intercalate_cons_cons]
      simp only [List.mem_append, List.mem_singleton, not_or]
      exact ⟨⟨first, apart⟩, others⟩

theorem copyRow_noNewline (row : Row) : 10 ∉ [9].intercalate (row.map copyField) := by
  refine not_mem_intercalate (by decide) fun field member => ?_
  obtain ⟨value, _, rfl⟩ := List.mem_map.mp member
  exact fun inside => (copyField_plain inside).2 rfl

theorem splitOn_copyFields {row : Row} (nonempty : row ≠ []) :
    ([9].intercalate (row.map copyField)).splitOn 9 = row.map copyField := by
  refine List.splitOn_intercalate 9 ?_ (by simpa using nonempty)
  intro field member
  obtain ⟨value, _, rfl⟩ := List.mem_map.mp member
  exact fun inside => (copyField_plain inside).1 rfl

section

variable (keyIndex : Nat) (spec : CopySpec) (shardFn : ShardFunction)

theorem rowInRange_copyRow {row : Row} (bound : keyIndex < row.length) :
    rowInRange (copyRow row) keyIndex spec shardFn =
      match row.keyspaceId keyIndex spec.shardKeyType shardFn with
      | .ok id => .ok (spec.targetRange.contains id)
      | .error e => .error (.filter e) := by
  have fields : ([9].intercalate (row.map copyField)).splitOn 9 = row.map copyField := by
    refine splitOn_copyFields ?_
    rintro rfl
    simp at bound
  unfold rowInRange copyRow
  simp only [List.getLast?_append, List.getLast?_singleton, Option.some_or, if_true, List.dropLast_concat,
    fields, List.getElem?_map, List.getElem?_eq_getElem bound, Option.map_some, copyFieldUnescape_copyField,
    Row.keyspaceId]
  cases row[keyIndex] with
  | none => rfl
  | some bytes =>
    simp only
    cases bytesKeyspaceId bytes spec.shardKeyType shardFn <;> rfl

def keptRows (rows : List Row) : List Row :=
  rows.filter fun row => row.inRange keyIndex spec.shardKeyType shardFn spec.targetRange

theorem drainRows_copyRows {rows : List Row} {before after : List (List UInt8)} {left : List UInt8}
    (bound : ∀ row ∈ rows, keyIndex < row.length)
    (run : drainRows (fun row => rowInRange row keyIndex spec shardFn) [] before (rows.map copyRow).flatten =
      .ok (left, after)) :
    after = before ++ (keptRows keyIndex spec shardFn rows).map copyRow := by
  induction rows generalizing before with
  | nil =>
    cases run
    simp [keptRows]
  | cons row rest ih =>
    have decided := rowInRange_copyRow keyIndex spec shardFn (bound row List.mem_cons_self)
    rw [List.map_cons, List.flatten_cons, copyRow, drainRows_row _ _ _ (copyRow_noNewline row), ← copyRow,
      decided] at run
    cases id : row.keyspaceId keyIndex spec.shardKeyType shardFn with
    | error e => simp [id, Except.mapError, Except.bind] at run
    | ok hashed =>
      simp only [id, Except.mapError, Except.bind] at run
      have tail := ih (fun r member => bound r (List.mem_cons_of_mem _ member)) run
      have own : row.inRange keyIndex spec.shardKeyType shardFn spec.targetRange =
          spec.targetRange.contains hashed := by simp [Row.inRange, id]
      rw [tail]
      cases inside : spec.targetRange.contains hashed with
      | true | false => simp [keptRows, own, inside]

/-- The snapshot copy sends exactly the encoded rows in the range, in order
and whatever the chunks. -/
theorem streamFiltered_copyRows {rows : List Row} {chunks : List (List UInt8)} {sink : CopySink} {copied : Nat}
    (encoded : chunks.flatten = (rows.map copyRow).flatten) (bound : ∀ row ∈ rows, keyIndex < row.length)
    (run : streamFiltered chunks keyIndex spec shardFn = (sink, .ok copied)) :
    sink.sent = (keptRows keyIndex spec shardFn rows).map copyRow := by
  unfold streamFiltered at run
  rw [streamChunks_eq_drainRows chunks (by simp), encoded] at run
  split at run
  · cases run
  · rename_i drained
    split at run
    · cases run
      simpa using drainRows_copyRows keyIndex spec shardFn bound drained
    · cases run

end

end PgShard
