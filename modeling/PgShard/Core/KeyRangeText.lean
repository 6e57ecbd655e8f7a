import PgShard.Core.Keyspace
import PgShard.Lib.Checked
import PgShard.Lib.Hex

/-! Key ranges as texts, and the even split of a range. -/

namespace PgShard

open Positional

inductive Fault (ε : Type)
  | panic
  | error (e : ε)
  deriving DecidableEq

/-! ## Splitting a range -/

section Split

variable {ε : Type} {r : KeyRange} {parts : Fin (2 ^ 32)} {i : Nat}

def u128 (n : Nat) : Except (Fault ε) Nat :=
  if n < 2 ^ 128 then .ok n else .error .panic

def u128Sub (a b : Nat) : Except (Fault ε) Nat :=
  if b ≤ a then .ok (a - b) else .error .panic

/-- The fields of a range, as `split_evenly` sets them without the check of `new`. -/
structure RangeFields where
  start : Fin (2 ^ 64)
  stop : Option (Fin (2 ^ 64))
  deriving DecidableEq

namespace KeyRange

def splitBound (r : KeyRange) (width parts i : Nat) : Except (Fault KeyRangeError) Nat := do
  let product ← u128 (i * width)
  u128 (r.start.val + product / parts)

def splitEvenly (r : KeyRange) (parts : Fin (2 ^ 32)) : Except (Fault KeyRangeError) (List RangeFields) :=
  if parts.val = 0 then .error (.error (.invalidSplit parts.val))
  else do
    let width ← u128Sub r.endExclusive r.start.val
    if width < parts.val then .error (.error (.invalidSplit parts.val))
    else (List.range parts.val).mapM fun i => do
      let lo ← r.splitBound width parts.val i
      let hi ← r.splitBound width parts.val (i + 1)
      .ok ⟨Fin.ofNat _ lo, if hi = r.endExclusive then r.stop else some (Fin.ofNat _ hi)⟩

def width (r : KeyRange) : Nat :=
  r.endExclusive - r.start.val

def cut (r : KeyRange) (parts i : Nat) : Nat :=
  r.start.val + i * r.width / parts

def part (r : KeyRange) (parts i : Nat) : RangeFields :=
  ⟨Fin.ofNat _ (r.cut parts i), if i + 1 = parts then r.stop else some (Fin.ofNat _ (r.cut parts (i + 1)))⟩

theorem start_add_width (r : KeyRange) : r.start.val + r.width = r.endExclusive := by
  have := r.start_lt_endExclusive
  unfold width
  omega

theorem cut_last (positive : 0 < parts.val) : r.cut parts.val parts.val = r.endExclusive := by
  rw [cut, Nat.mul_div_cancel_left _ positive, r.start_add_width]

theorem cut_lt (wide : 0 < r.width) (inner : i < parts.val) : r.cut parts.val i < r.endExclusive := by
  have less : i * r.width / parts.val < r.width :=
    Nat.div_lt_of_lt_mul (Nat.mul_lt_mul_of_pos_right inner wide)
  have := r.start_add_width
  unfold cut
  omega

theorem splitBound_eq (inner : i ≤ parts.val) (positive : 0 < parts.val) :
    r.splitBound r.width parts.val i = .ok (r.cut parts.val i) := by
  have bound := r.endExclusive_le
  have sum := r.start_add_width
  have product : i * r.width < 2 ^ 128 :=
    calc i * r.width ≤ 2 ^ 32 * 2 ^ 64 := Nat.mul_le_mul (inner.trans parts.isLt.le) (by omega)
      _ < 2 ^ 128 := by norm_num
  have below : r.cut parts.val i ≤ r.endExclusive := by
    rw [← cut_last positive]
    unfold cut
    exact Nat.add_le_add_left (Nat.div_le_div_right (Nat.mul_le_mul_right _ inner)) _
  have sum' : r.start.val + i * r.width / parts.val < 2 ^ 128 := by
    calc r.cut parts.val i ≤ 2 ^ 64 := below.trans bound
      _ < 2 ^ 128 := by norm_num
  simp only [splitBound, u128, product, if_true, bind, Except.bind, sum']
  rfl

theorem splitEvenly_eq : r.splitEvenly parts =
    if parts.val = 0 ∨ r.width < parts.val then .error (.error (.invalidSplit parts.val))
    else .ok ((List.range parts.val).map (r.part parts.val)) := by
  by_cases none : parts.val = 0
  · rw [splitEvenly, if_pos none, if_pos (.inl none)]
  have sub : (u128Sub r.endExclusive r.start.val : Except (Fault KeyRangeError) Nat) = .ok r.width :=
    if_pos r.start_lt_endExclusive.le
  simp only [splitEvenly, none, if_false, sub, bind, Except.bind, false_or]
  split_ifs with narrow
  · rfl
  refine Checked.mapM_ok fun i member => ?_
  have inner := List.mem_range.mp member
  rw [splitBound_eq inner.le (by omega), splitBound_eq inner (by omega)]
  have last : r.cut parts.val (i + 1) = r.endExclusive ↔ i + 1 = parts.val := by
    constructor
    · intro reaches
      by_contra before
      exact absurd reaches (cut_lt (by omega) (by omega)).ne
    · rintro same
      rw [same, cut_last (by omega)]
  simp only [last]
  rfl

end KeyRange

end Split

/-! ## Texts -/

/-- `trim_end_matches("00")`, on the reversed digits. -/
def trimZeroBytes : List Char → List Char
  | '0' :: '0' :: rest => trimZeroBytes rest
  | digits => digits

def formatBound (v : Fin (2 ^ 64)) : String :=
  if v = 0 then "" else String.ofList (trimZeroBytes (Hex.padded 16 v.val).reverse).reverse

def toDigit (c : Char) : Option Nat :=
  if '0' ≤ c ∧ c ≤ '9' then some (c.toNat - '0'.toNat)
  else if 'a' ≤ c ∧ c ≤ 'f' then some (c.toNat - 'a'.toNat + 10)
  else if 'A' ≤ c ∧ c ≤ 'F' then some (c.toNat - 'A'.toNat + 10)
  else none

def radixDigits : List Char → Nat → Option Nat
  | [], v => some v
  | c :: rest, v => (toDigit c).bind fun d => if v * 16 + d < 2 ^ 64 then radixDigits rest (v * 16 + d) else none

def fromStrRadix : List Char → Option Nat
  | [] | ['+'] | ['-'] => none
  | '+' :: digits => radixDigits digits 0
  | digits => radixDigits digits 0

def isBoundChar (c : Char) : Bool :=
  decide ('0' ≤ c ∧ c ≤ '9') || decide ('a' ≤ c ∧ c ≤ 'f')

def parseBound (s : String) : Except KeyRangeError (Fin (2 ^ 64)) :=
  if s = "" then .ok 0
  else if s.utf8ByteSize % 2 ≠ 0 || s.utf8ByteSize > 16 || !s.toList.all isBoundChar then .error (.invalidBound s)
  else
    match fromStrRadix s.toList with
    | none => .error (.invalidBound s)
    | some parsed => .ok (Fin.ofNat _ (parsed <<< (4 * (16 - s.utf8ByteSize))))

def KeyRange.toText (r : KeyRange) : String :=
  formatBound r.start ++ "-" ++ (r.stop.map formatBound).getD ""

def splitOnce (s : String) (separator : Char) : Option (String × String) :=
  match s.toList.span (· != separator) with
  | (_, []) => none
  | (before, _ :: after) => some (String.ofList before, String.ofList after)

def KeyRange.fromStr (s : String) : Except KeyRangeError KeyRange :=
  match splitOnce s '-' with
  | none => .error (.invalidSyntax s)
  | some (startText, endText) => do
    let start ← parseBound startText
    let stop ← if endText = "" then .ok none else some <$> parseBound endText
    KeyRange.new start stop

section Texts

variable {cs : List Char} {ds : List Nat} {s : String} {v : Fin (2 ^ 64)}

theorem isBoundChar_iff {c : Char} : isBoundChar c = true ↔ (Hex.digit c).isSome = true := by
  unfold isBoundChar Hex.digit
  split_ifs <;> simp_all

theorem toDigit_of_digit {c : Char} {d : Nat} (read : Hex.digit c = some d) : toDigit c = some d := by
  unfold Hex.digit at read
  unfold toDigit
  split_ifs at read <;> simp_all

theorem radixDigits_of_reads {acc : Nat} (reads : Hex.Reads cs ds) (fits : (acc + 1) * 16 ^ cs.length ≤ 2 ^ 64) :
    radixDigits cs acc = some (acc * 16 ^ ds.length + value 16 ds) := by
  induction reads generalizing acc with
  | nil => simp [radixDigits]
  | @cons c d cs ds first rest ih =>
    have small := Hex.digit_lt first
    have next : (acc * 16 + d + 1) * 16 ^ cs.length ≤ 2 ^ 64 :=
      calc (acc * 16 + d + 1) * 16 ^ cs.length ≤ ((acc + 1) * 16) * 16 ^ cs.length :=
            Nat.mul_le_mul_right _ (by omega)
        _ = (acc + 1) * 16 ^ (cs.length + 1) := by ring
        _ ≤ 2 ^ 64 := fits
    have room : acc * 16 + d < 2 ^ 64 := by
      have positive : 1 ≤ 16 ^ cs.length := Nat.one_le_pow _ _ (by norm_num)
      nlinarith
    rw [radixDigits, toDigit_of_digit first, Option.bind_some, if_pos room, ih next, value_cons, List.length_cons]
    congr 1
    ring

theorem fromStrRadix_of_reads (reads : Hex.Reads cs ds) (nonempty : cs ≠ []) (short : cs.length ≤ 16) :
    fromStrRadix cs = some (value 16 ds) := by
  have digits : radixDigits cs 0 = some (value 16 ds) := by
    have fits : (0 + 1) * 16 ^ cs.length ≤ 2 ^ 64 := by
      calc (0 + 1) * 16 ^ cs.length ≤ 1 * 16 ^ 16 := Nat.mul_le_mul_left _ (Nat.pow_le_pow_right (by norm_num) short)
        _ = 2 ^ 64 := by norm_num
    simpa using radixDigits_of_reads reads fits
  unfold fromStrRadix
  split
  · exact absurd rfl nonempty
  · rcases reads with _ | ⟨first, _⟩
    cases first
  · rcases reads with _ | ⟨first, _⟩
    cases first
  · rcases reads with _ | ⟨first, _⟩
    cases first
  · exact digits

theorem utf8ByteSize_of_reads (reads : Hex.Reads s.toList ds) : s.utf8ByteSize = ds.length := by
  have size := reads.utf8ByteSize
  rwa [String.ofList_toList, reads.length] at size

theorem aligned_fits (reads : Hex.Reads cs ds) (short : ds.length ≤ 16) : aligned 16 16 ds < 2 ^ 64 := by
  have fits := aligned_lt (by norm_num) short reads.small
  norm_num at fits ⊢
  exact fits

theorem parseBound_of_reads (reads : Hex.Reads s.toList ds) (even : ds.length % 2 = 0) (short : ds.length ≤ 16) :
    parseBound s = .ok (Fin.ofNat _ (aligned 16 16 ds)) := by
  have size := utf8ByteSize_of_reads reads
  unfold parseBound
  split_ifs with empty refused
  · rw [empty] at reads
    cases reads
    rfl
  · have hex : s.toList.all isBoundChar = true := by
      rw [List.all_eq_true]
      exact fun c member => isBoundChar_iff.mpr (Hex.reads_iff_all.mp ⟨ds, reads⟩ c member)
    simp only [hex, Bool.not_true, Bool.or_false, Bool.or_eq_true, decide_eq_true_eq] at refused
    omega
  · have nonempty : s.toList ≠ [] := fun nil => empty (String.toList_eq_nil_iff.mp nil)
    rw [fromStrRadix_of_reads reads nonempty (by rw [reads.length]; exact short)]
    simp only [size, Nat.shiftLeft_eq, aligned, Nat.pow_mul, Nat.reducePow]

/-- A bound parses exactly if it is of an even number of hex digits, at most 16, to the
number they give when they are aligned to the left. -/
theorem parseBound_eq_ok_iff : parseBound s = .ok v ↔
    ∃ ds, Hex.Reads s.toList ds ∧ ds.length % 2 = 0 ∧ ds.length ≤ 16 ∧ v.val = aligned 16 16 ds := by
  constructor
  · intro parsed
    have accepted : ∃ ds, Hex.Reads s.toList ds ∧ ds.length % 2 = 0 ∧ ds.length ≤ 16 := by
      unfold parseBound at parsed
      split_ifs at parsed with empty refused
      · exact ⟨[], by rw [empty]; exact .nil, rfl, by simp⟩
      · simp only [Bool.or_eq_true, decide_eq_true_eq, not_or, Bool.not_eq_true', Bool.not_eq_false] at refused
        obtain ⟨ds, reads⟩ := Hex.reads_iff_all.mpr fun c member =>
          isBoundChar_iff.mp (List.all_eq_true.mp refused.2 c member)
        have size := utf8ByteSize_of_reads reads
        exact ⟨ds, reads, by omega, by omega⟩
    obtain ⟨ds, reads, even, short⟩ := accepted
    rw [parseBound_of_reads reads even short] at parsed
    cases parsed
    exact ⟨ds, reads, even, short, Nat.mod_eq_of_lt (aligned_fits reads short)⟩
  · rintro ⟨ds, reads, even, short, same⟩
    rw [parseBound_of_reads reads even short]
    congr 1
    exact Fin.ext ((Nat.mod_eq_of_lt (aligned_fits reads short)).trans same.symm)

/-! Formatted bounds -/

theorem trimZeroBytes_spec (digits : List Char) :
    ∃ k, digits = List.replicate (2 * k) '0' ++ trimZeroBytes digits := by
  fun_induction trimZeroBytes digits with
  | case1 rest ih =>
    obtain ⟨k, same⟩ := ih
    refine ⟨k + 1, ?_⟩
    rw [Nat.mul_add, Nat.add_comm, List.replicate_add, List.append_assoc, ← same]
    rfl
  | case2 digits _ => exact ⟨0, rfl⟩

theorem formatBound_reads (v : Fin (2 ^ 64)) :
    ∃ ds, Hex.Reads (formatBound v).toList ds ∧ ds.length % 2 = 0 ∧ ds.length ≤ 16 ∧ v.val = aligned 16 16 ds := by
  by_cases zero : v = 0
  · exact ⟨[], by rw [formatBound, if_pos zero]; exact .nil, rfl, by simp, by rw [zero]; rfl⟩
  obtain ⟨ds, reads, width, same⟩ := Hex.reads_padded (by norm_num : 0 < 16) (v.isLt.trans_eq (by norm_num))
  obtain ⟨k, trimmed⟩ := trimZeroBytes_spec (Hex.padded 16 v.val).reverse
  have digits : Hex.padded 16 v.val = (formatBound v).toList ++ List.replicate (2 * k) '0' := by
    rw [formatBound, if_neg zero, String.toList_ofList, ← List.reverse_inj, List.reverse_append, List.reverse_reverse,
      List.reverse_replicate]
    exact trimmed
  rw [digits] at reads
  obtain ⟨kept, zeros, rfl, readsKept, readsZeros⟩ := reads.of_append
  rw [readsZeros.eq_zeros, List.length_append, List.length_replicate] at width
  rw [readsZeros.eq_zeros, value_append_zeros] at same
  refine ⟨kept, readsKept, by omega, by omega, ?_⟩
  rw [aligned, ← same]
  congr 2
  omega

theorem parseBound_formatBound (v : Fin (2 ^ 64)) : parseBound (formatBound v) = .ok v :=
  parseBound_eq_ok_iff.mpr (formatBound_reads v)

/-- Of two texts that parse, the first in order has no larger bound. -/
theorem parseBound_le_of_lt {t : String} {w : Fin (2 ^ 64)} (left : parseBound s = .ok v) (right : parseBound t = .ok w)
    (before : s < t) : v ≤ w := by
  obtain ⟨ds, reads, _, short, same⟩ := parseBound_eq_ok_iff.mp left
  obtain ⟨es, reads', _, short', same'⟩ := parseBound_eq_ok_iff.mp right
  rw [Fin.le_def, same, same']
  exact aligned_le_of_lt (by norm_num) short short' reads.small (reads.lt_of_lt reads' (String.lt_iff.mp before))

theorem formatBound_lt_iff {v w : Fin (2 ^ 64)} : formatBound v < formatBound w ↔ v < w := by
  have order : ∀ v w : Fin (2 ^ 64), formatBound v < formatBound w → v ≤ w := fun v w =>
    parseBound_le_of_lt (parseBound_formatBound v) (parseBound_formatBound w)
  constructor
  · intro before
    refine lt_of_le_of_ne (order v w before) ?_
    rintro rfl
    exact String.lt_irrefl _ before
  · intro less
    by_contra later
    by_cases same : formatBound v ≤ formatBound w
    · have parsed := parseBound_formatBound v
      rw [String.le_antisymm same (String.not_lt.mp later), parseBound_formatBound w] at parsed
      cases parsed
      exact absurd less (lt_irrefl _)
    · exact absurd (order w v (String.not_le.mp same)) (not_le.mpr less)

theorem formatBound_eq_empty_iff : formatBound v = "" ↔ v = 0 := by
  constructor
  · intro empty
    have parsed := parseBound_formatBound v
    rw [empty] at parsed
    cases parsed
    rfl
  · rintro rfl
    rfl

theorem dash_not_mem_formatBound (v : Fin (2 ^ 64)) : '-' ∉ (formatBound v).toList := by
  obtain ⟨ds, reads, _⟩ := formatBound_reads v
  intro member
  exact absurd (Hex.reads_iff_all.mp ⟨ds, reads⟩ '-' member) (by decide)

theorem splitOnce_append {before after : String} {separator : Char} (absent : separator ∉ before.toList) :
    splitOnce (before ++ String.singleton separator ++ after) separator = some (before, after) := by
  have text : (before ++ String.singleton separator ++ after).toList = before.toList ++ separator :: after.toList := by
    simp
  have passes : ∀ c ∈ before.toList, (c != separator) = true := fun c member => by
    simpa using fun same : c = separator => absent (same ▸ member)
  rw [splitOnce, List.span_eq_takeWhile_dropWhile, text, List.takeWhile_append_of_pos passes,
    List.dropWhile_append_of_pos passes]
  simp

theorem KeyRange.new_eq (r : KeyRange) : KeyRange.new r.start r.stop = .ok r := by
  obtain ⟨start, stop, nonempty⟩ := r
  cases stop with
  | none => rfl
  | some e => exact dif_pos (nonempty e rfl)

theorem KeyRange.stop_ne_zero {r : KeyRange} {e : Fin (2 ^ 64)} (stop : r.stop = some e) : e ≠ 0 :=
  fun zero => absurd (zero ▸ r.nonempty e stop) (Fin.not_lt_zero _)

theorem KeyRange.fromStr_toText (r : KeyRange) : KeyRange.fromStr r.toText = .ok r := by
  have split : splitOnce r.toText '-' = some (formatBound r.start, (r.stop.map formatBound).getD "") :=
    splitOnce_append (dash_not_mem_formatBound r.start)
  rw [KeyRange.fromStr, split]
  simp only [parseBound_formatBound, bind, Except.bind]
  cases stop : r.stop with
  | none =>
    have made := r.new_eq
    rwa [stop] at made
  | some e =>
    have nonempty : formatBound e ≠ "" := fun empty =>
      KeyRange.stop_ne_zero stop (formatBound_eq_empty_iff.mp empty)
    have made := r.new_eq
    rw [stop] at made
    simpa [nonempty, parseBound_formatBound] using made

end Texts

end PgShard
