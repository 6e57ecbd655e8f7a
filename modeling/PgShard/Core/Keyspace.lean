import Mathlib

namespace PgShard

/-- Position in the 64-bit keyspace. -/
abbrev KeyspaceId := Fin (2 ^ 64)

instance neZero_keyspace : NeZero (2 ^ 64) := ⟨by decide⟩

/-- Half-open range over keyspace ids. A missing end reaches the top of the
space; the field `nonempty` is what `KeyRange::new` checks. -/
structure KeyRange where
  start : Fin (2 ^ 64)
  stop : Option (Fin (2 ^ 64))
  nonempty : ∀ e, stop = some e → start < e
  deriving DecidableEq

inductive KeyRangeError
  | empty (start stop : Fin (2 ^ 64))
  | invalidBound (text : String)
  | invalidSyntax (text : String)
  | invalidSplit (parts : Nat)
  deriving DecidableEq

theorem KeyRange.nonempty_open (start : Fin (2 ^ 64)) : ∀ e, none = some e → start < e := by simp

def KeyRange.full : KeyRange := ⟨0, none, KeyRange.nonempty_open 0⟩

def KeyRange.new (start : Fin (2 ^ 64)) (stop : Option (Fin (2 ^ 64))) : Except KeyRangeError KeyRange :=
  match stop with
  | none => .ok ⟨start, none, KeyRange.nonempty_open start⟩
  | some e =>
    if below : start < e then .ok ⟨start, some e, by rintro x ⟨⟩; exact below⟩
    else .error (.empty start e)

/-- `end_exclusive`, in the wider integers the source computes it in. -/
def KeyRange.endExclusive (r : KeyRange) : Nat :=
  match r.stop with
  | none => 2 ^ 64
  | some e => e.val

def KeyRange.contains (r : KeyRange) (id : KeyspaceId) : Bool :=
  decide (r.start.val ≤ id.val) && decide (id.val < r.endExclusive)

theorem KeyRange.contains_iff {r : KeyRange} {id : KeyspaceId} :
    r.contains id = true ↔ r.start.val ≤ id.val ∧ id.val < r.endExclusive := by
  simp [KeyRange.contains]

theorem KeyRange.start_lt_endExclusive (r : KeyRange) : r.start.val < r.endExclusive := by
  unfold endExclusive
  cases stop : r.stop with
  | none => exact r.start.isLt
  | some e => exact r.nonempty e stop

theorem KeyRange.endExclusive_le (r : KeyRange) : r.endExclusive ≤ 2 ^ 64 := by
  unfold endExclusive
  cases r.stop with
  | none => exact le_refl _
  | some e => exact e.isLt.le

inductive PartitionError
  | empty
  | doesNotStartAtZero (start : Fin (2 ^ 64))
  | gapOrOverlap (index : Nat) (prevEnd : Option (Fin (2 ^ 64))) (nextStart : Fin (2 ^ 64))
  | doesNotEndAtMax (stop : Fin (2 ^ 64))
  deriving DecidableEq

def validateWindows (index : Nat) : List KeyRange → Except PartitionError Unit
  | a :: b :: rest =>
    if a.stop = some b.start then validateWindows (index + 1) (b :: rest)
    else .error (.gapOrOverlap (index + 1) a.stop b.start)
  | _ => .ok ()

def validatePartition (ranges : List KeyRange) : Except PartitionError Unit :=
  match ranges with
  | [] => .error .empty
  | first :: rest =>
    if first.start ≠ 0 then .error (.doesNotStartAtZero first.start)
    else do
      validateWindows 0 (first :: rest)
      match ((first :: rest).getLast (by simp)).stop with
      | none => .ok ()
      | some e => .error (.doesNotEndAtMax e)

theorem validatePartition_cons_iff {first : KeyRange} {rest : List KeyRange} :
    validatePartition (first :: rest) = .ok () ↔ first.start = 0 ∧ validateWindows 0 (first :: rest) = .ok () ∧
      ((first :: rest).getLast (by simp)).stop = none := by
  simp only [validatePartition]
  split_ifs with positive
  · exact iff_of_false (fun valid => by cases valid) fun parts => positive parts.1
  · rw [eq_true (not_not.mp positive), true_and]
    cases validateWindows 0 (first :: rest) with
    | error e => exact iff_of_false (fun valid => by cases valid) fun parts => by cases parts.1
    | ok _ =>
      cases ((first :: rest).getLast (by simp)).stop with
      | none => exact iff_of_true rfl ⟨rfl, rfl⟩
      | some e => exact iff_of_false (fun valid => by cases valid) fun parts => by cases parts.2

end PgShard
