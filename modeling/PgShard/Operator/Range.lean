import PgShard.Core.Keyspace
import PgShard.Lib.Quote

/-! Key ranges as the operator writes them: canonical hex bounds in the API
objects, parsed into the ranges the routing core computes with. -/

namespace PgShard.Operator

open Quote

def hex (n : Nat) : String :=
  "0x" ++ String.ofList (Nat.toDigits 16 n)

def hexDigits16 (n : Nat) : List Char :=
  let digits := Nat.toDigits 16 n
  List.replicate (16 - digits.length) '0' ++ digits

def hex16 (n : Nat) : String :=
  "0x" ++ String.ofList (hexDigits16 n)

structure KeyBounds where
  start : String
  stop : String
  deriving DecidableEq

def hexValue (c : Char) : Option Nat :=
  if '0' ≤ c ∧ c ≤ '9' then some (c.toNat - '0'.toNat)
  else if 'a' ≤ c ∧ c ≤ 'f' then some (c.toNat - 'a'.toNat + 10)
  else none

def parseHex : List Char → Nat → Option Nat
  | [], v => some v
  | c :: rest, v => (hexValue c).bind fun d => parseHex rest (v * 16 + d)

/-- Lowercase hex, an even number of digits, at most 16, left-aligned into the
64-bit space. -/
def parseBound (s : String) : Except String (Fin (2 ^ 64)) :=
  if s = "" then .ok 0
  else if s.utf8ByteSize % 2 ≠ 0 ∨ s.utf8ByteSize > 16 then
    .error ("invalid bound " ++ quoted s ++ ": expected even number of hex digits, at most 16")
  else
    match parseHex s.toList 0 with
    | none => .error ("invalid bound " ++ quoted s ++ ": expected lowercase hex")
    | some v => .ok (Fin.ofNat (2 ^ 64) (v * 2 ^ (4 * (16 - s.utf8ByteSize))))

def dropTrailingZeros (digits : List Char) : List Char :=
  (digits.reverse.dropWhile (· == '0')).reverse

def formatBound (v : Nat) : String :=
  if v = 0 then ""
  else
    let trimmed := dropTrailingZeros (hexDigits16 v)
    String.ofList (if trimmed.length % 2 = 1 then trimmed ++ ['0'] else trimmed)

def rangeText (r : KeyRange) : String :=
  formatBound r.start.val ++ "-" ++ (match r.stop with
    | none => ""
    | some e => formatBound e.val)

def newOpenKeyRange (start : Fin (2 ^ 64)) : KeyRange :=
  ⟨start, none, KeyRange.nonempty_open start⟩

def newKeyRange (start stop : Fin (2 ^ 64)) : Except String KeyRange :=
  match KeyRange.new start (some stop) with
  | .ok r => .ok r
  | .error _ => .error ("empty range: start " ++ hex16 start.val ++ " >= end " ++ hex16 stop.val)

def cutDash (s : String) : Option (String × String) :=
  match s.toList.span (· != '-') with
  | (_, []) => none
  | (before, _ :: after) => some (String.ofList before, String.ofList after)

def parseKeyRange (s : String) : Except String KeyRange :=
  match cutDash s with
  | none => .error ("invalid range " ++ quoted s ++ ": expected \"<start>-<end>\"")
  | some (startText, endText) => do
    let start ← parseBound startText
    if endText = "" then .ok (newOpenKeyRange start)
    else newKeyRange start (← parseBound endText)

def toRange (kr : KeyBounds) : Except String KeyRange :=
  parseKeyRange (kr.start ++ "-" ++ kr.stop)

def sortByStart (ranges : List KeyRange) : List KeyRange :=
  ranges.insertionSort fun a b => a.start ≤ b.start

def contiguous : List KeyRange → Except String Unit
  | a :: b :: rest =>
    match a.stop with
    | none => .error ("target range " ++ rangeText a ++ " is unbounded but is not the last range")
    | some e =>
      if e ≠ b.start then
        .error ("target ranges are not contiguous: " ++ rangeText a ++ " is followed by " ++ rangeText b ++
          " (gap or overlap)")
      else contiguous (b :: rest)
  | _ => .ok ()

/-- `validateReshardPartition` for one outcome of its sort, which is not stable and may list equal starts in any
order. -/
def validateReshardSorted (source : KeyRange) (targets sorted : List KeyRange) : Except String Unit :=
  if targets.length < 2 then
    .error ("a reshard must split the source into at least two ranges, got " ++ toString targets.length)
  else
    match sorted with
    | [] => .ok ()
    | first :: rest =>
      if first.start ≠ source.start then
        .error ("target ranges must start at the source start " ++ rangeText source ++
          ", but the first target is " ++ rangeText first)
      else do
        contiguous (first :: rest)
        let last := (first :: rest).getLast (List.cons_ne_nil first rest)
        if last.stop ≠ source.stop then
          .error ("target ranges must end at the source end " ++ rangeText source ++
            ", but the last target is " ++ rangeText last)
        else .ok ()

/-- The targets exactly partition the source: at least two ranges, contiguous,
from the source's start to its end. -/
def validateReshardPartition (source : KeyRange) (targets : List KeyRange) : Except String Unit :=
  validateReshardSorted source targets (sortByStart targets)

def partitionWindows (index : Nat) : List KeyRange → Except String Unit
  | prev :: next :: rest =>
    if prev.stop ≠ some next.start then
      .error ("range " ++ toString index ++ " starts at " ++ hex16 next.start.val ++
        " but previous range ends at " ++ rangeText prev)
    else partitionWindows (index + 1) (next :: rest)
  | _ => .ok ()

def validatePartition (ranges : List KeyRange) : Except String Unit :=
  match ranges with
  | [] => .error "no ranges"
  | first :: rest =>
    if first.start ≠ 0 then .error ("first range starts at " ++ hex16 first.start.val ++ ", not 0")
    else do
      partitionWindows 1 (first :: rest)
      match ((first :: rest).getLast (List.cons_ne_nil first rest)).stop with
      | none => .ok ()
      | some e => .error ("last range ends at " ++ hex16 e.val ++ " instead of the top of the keyspace")

end PgShard.Operator
