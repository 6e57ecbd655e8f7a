import PgShard.Core.KeyRangeText
import PgShard.Operator.Range

/-! The operator's own implementation of key ranges, against the router's. -/

namespace PgShard.Operator

open Positional

/-! ## Splitting a range -/

structure GoKeyRange where
  start : Fin (2 ^ 64)
  stop : Fin (2 ^ 64)
  closed : Bool
  deriving DecidableEq

def GoKeyRange.ofBounds (start : Fin (2 ^ 64)) : Option (Fin (2 ^ 64)) → GoKeyRange
  | none => ⟨start, 0, false⟩
  | some e => ⟨start, e, true⟩

/-- `bits.Mul64`: the high and the low word of the product. -/
def mul64 (x y : Fin (2 ^ 64)) : Fin (2 ^ 64) × Fin (2 ^ 64) :=
  (Fin.ofNat _ (x.val * y.val / 2 ^ 64), Fin.ofNat _ (x.val * y.val))

/-- `bits.Div64`: it panics on a division by zero and when the quotient has no room. -/
def div64 (hi lo y : Fin (2 ^ 64)) : Except (Fault String) (Fin (2 ^ 64) × Fin (2 ^ 64)) :=
  if y = 0 ∨ y ≤ hi then .error .panic
  else .ok (Fin.ofNat _ ((hi.val * 2 ^ 64 + lo.val) / y.val), Fin.ofNat _ ((hi.val * 2 ^ 64 + lo.val) % y.val))

namespace GoKeyRange

def isFull (r : GoKeyRange) : Bool :=
  !r.closed && r.start == 0

def width (r : GoKeyRange) : Fin (2 ^ 64) :=
  if r.closed then r.stop - r.start else -r.start

def bound (r : GoKeyRange) (parts i : Fin (2 ^ 64)) : Except (Fault String) (Fin (2 ^ 64)) :=
  if !r.closed && r.start == 0 then do
    let q ← div64 i 0 parts
    .ok q.1
  else do
    let product := mul64 i r.width
    let q ← div64 product.1 product.2 parts
    .ok (r.start + q.1)

def text (r : GoKeyRange) : String :=
  formatBound r.start.val ++ "-" ++ (if r.closed then formatBound r.stop.val else "")

def splitEvenly (r : GoKeyRange) (parts : Fin (2 ^ 32)) : Except (Fault String) (List GoKeyRange) :=
  let parts64 : Fin (2 ^ 64) := Fin.ofNat _ parts.val
  if parts.val = 0 then .error (.error "cannot split into 0 parts")
  else if !r.isFull && decide (r.width < parts64) then
    .error (.error ("cannot split " ++ r.text ++ " into " ++ toString parts.val ++ " parts: too narrow"))
  else (List.range parts.val).mapM fun i => do
    let start ← r.bound parts64 (Fin.ofNat _ i)
    if Fin.ofNat _ i = parts64 - 1 then .ok ⟨start, r.stop, r.closed⟩
    else do
      let stop ← r.bound parts64 (Fin.ofNat _ i + 1)
      .ok ⟨start, stop, true⟩

end GoKeyRange

section Split

variable {r : KeyRange} {parts : Fin (2 ^ 32)} {i : Nat}

def goRange (r : KeyRange) : GoKeyRange :=
  GoKeyRange.ofBounds r.start r.stop

theorem goRange_start : (goRange r).start = r.start := by
  unfold goRange
  cases r.stop <;> rfl

theorem goRange_end (start : Fin (2 ^ 64)) :
    (⟨start, (goRange r).stop, (goRange r).closed⟩ : GoKeyRange) = .ofBounds start r.stop := by
  unfold goRange
  cases r.stop <;> rfl

theorem goRange_isFull : (goRange r).isFull = true ↔ r.width = 2 ^ 64 := by
  have bound := r.start.isLt
  have below := r.start_lt_endExclusive
  unfold KeyRange.width
  cases stop : r.stop with
  | none =>
    have zero : r.start = 0 ↔ r.start.val = 0 := Fin.ext_iff
    simp only [goRange, stop, GoKeyRange.ofBounds, GoKeyRange.isFull, KeyRange.endExclusive, Bool.not_false, Bool.true_and,
      beq_iff_eq, zero]
    omega
  | some e =>
    have small := e.isLt
    simp only [goRange, stop, GoKeyRange.ofBounds, GoKeyRange.isFull, KeyRange.endExclusive, Bool.not_true, Bool.false_and,
      Bool.false_eq_true, false_iff]
    omega

theorem goRange_width (bounded : r.width ≠ 2 ^ 64) : (goRange r).width.val = r.width := by
  unfold KeyRange.width at bounded ⊢
  cases stop : r.stop with
  | none =>
    simp only [goRange, stop, GoKeyRange.ofBounds, GoKeyRange.width, KeyRange.endExclusive] at bounded ⊢
    have positive : r.start ≠ 0 := by
      rintro zero
      rw [zero] at bounded
      exact bounded rfl
    rw [if_neg (by simp), Fin.val_neg, if_neg positive]
  | some e =>
    simp only [goRange, stop, GoKeyRange.ofBounds, GoKeyRange.width, KeyRange.endExclusive, if_true]
    exact Fin.sub_val_of_le (r.nonempty e stop).le

theorem div64_eq {hi lo y : Fin (2 ^ 64)} (room : hi < y) :
    div64 hi lo y = .ok (Fin.ofNat _ ((hi.val * 2 ^ 64 + lo.val) / y.val),
      Fin.ofNat _ ((hi.val * 2 ^ 64 + lo.val) % y.val)) :=
  if_neg (by
    rintro (rfl | low)
    · exact absurd room (Fin.not_lt_zero _)
    · exact absurd room (not_lt.mpr low))

theorem mul64_words (x y : Fin (2 ^ 64)) : (mul64 x y).1.val * 2 ^ 64 + (mul64 x y).2.val = x.val * y.val := by
  have high : x.val * y.val / 2 ^ 64 < 2 ^ 64 :=
    Nat.div_lt_of_lt_mul (Nat.mul_lt_mul'' x.isLt y.isLt)
  rw [mul64, Fin.val_ofNat, Fin.val_ofNat, Nat.mod_eq_of_lt high]
  exact Nat.div_add_mod' _ _

theorem val_parts64 (parts : Fin (2 ^ 32)) : (Fin.ofNat (2 ^ 64) parts.val).val = parts.val :=
  Nat.mod_eq_of_lt (parts.isLt.trans (by norm_num))

theorem goRange_bound (inner : i < parts.val) :
    (goRange r).bound (Fin.ofNat _ parts.val) (Fin.ofNat _ i) = .ok (Fin.ofNat _ (r.cut parts.val i)) := by
  have index : (Fin.ofNat (2 ^ 64) i).val = i := Nat.mod_eq_of_lt (by have := parts.isLt; omega)
  by_cases full : (goRange r).isFull = true
  · have whole := goRange_isFull.mp full
    have start : r.start.val = 0 := by
      have := r.start_add_width
      have := r.endExclusive_le
      omega
    have room : Fin.ofNat (2 ^ 64) i < Fin.ofNat (2 ^ 64) parts.val := by
      rwa [Fin.lt_def, index, val_parts64]
    rw [GoKeyRange.bound, show (!(goRange r).closed && (goRange r).start == 0) = true from full, if_pos rfl, div64_eq room]
    simp only [bind, Except.bind, index, val_parts64, Fin.val_zero, Nat.add_zero, KeyRange.cut, start, whole, Nat.zero_add]
  · have width := goRange_width (fun whole => full (goRange_isFull.mpr whole))
    have words := mul64_words (Fin.ofNat _ i) (goRange r).width
    rw [index, width] at words
    have small : r.width ≤ 2 ^ 64 := (Nat.sub_le _ _).trans r.endExclusive_le
    have room : (mul64 (Fin.ofNat _ i) (goRange r).width).1 < Fin.ofNat (2 ^ 64) parts.val := by
      rw [Fin.lt_def, val_parts64]
      have product : i * r.width < parts.val * 2 ^ 64 :=
        calc i * r.width ≤ i * 2 ^ 64 := Nat.mul_le_mul_left _ small
          _ < parts.val * 2 ^ 64 := Nat.mul_lt_mul_of_pos_right inner (by norm_num)
      omega
    have notFull : (!(goRange r).closed && (goRange r).start == 0) = false := Bool.eq_false_iff.mpr full
    rw [GoKeyRange.bound, notFull, if_neg (by simp)]
    simp only [div64_eq room, bind, Except.bind, words, val_parts64]
    congr 1
    apply Fin.ext
    simp only [Fin.val_add, Fin.val_ofNat, KeyRange.cut, Nat.add_mod_mod, goRange_start]

theorem goRange_splitEvenly : (∃ message, (goRange r).splitEvenly parts = .error (.error message) ∧
      (parts.val = 0 ∨ r.width < parts.val)) ∨
    ¬ (parts.val = 0 ∨ r.width < parts.val) ∧ (goRange r).splitEvenly parts =
      .ok ((List.range parts.val).map fun i => GoKeyRange.ofBounds (r.part parts.val i).start (r.part parts.val i).stop) := by
  have words := parts.isLt
  by_cases none : parts.val = 0
  · exact .inl ⟨_, if_pos none, .inl none⟩
  have narrow : (!(goRange r).isFull && decide ((goRange r).width < Fin.ofNat _ parts.val)) = true ↔
      r.width < parts.val := by
    by_cases whole : r.width = 2 ^ 64
    · rw [goRange_isFull.mpr whole]
      simp only [Bool.not_true, Bool.false_and, Bool.false_eq_true, false_iff]
      omega
    · have bounded : (goRange r).isFull = false := Bool.eq_false_iff.mpr fun full => whole (goRange_isFull.mp full)
      rw [bounded, Bool.not_false, Bool.true_and, decide_eq_true_eq, Fin.lt_def, goRange_width whole, val_parts64]
  by_cases short : r.width < parts.val
  · exact .inl ⟨_, by rw [GoKeyRange.splitEvenly, if_neg none, if_pos (narrow.mpr short)], .inr short⟩
  refine .inr ⟨by simp [none, short], ?_⟩
  simp only [GoKeyRange.splitEvenly, none, if_false, mt narrow.mp short]
  refine Checked.mapM_ok fun i member => ?_
  have inner := List.mem_range.mp member
  have index : (Fin.ofNat (2 ^ 64) i).val = i := Nat.mod_eq_of_lt (by omega)
  have last : Fin.ofNat (2 ^ 64) i = Fin.ofNat (2 ^ 64) parts.val - 1 ↔ i + 1 = parts.val := by
    have one : (1 : Fin (2 ^ 64)).val = 1 := rfl
    have less : (1 : Fin (2 ^ 64)) ≤ Fin.ofNat (2 ^ 64) parts.val := by
      rw [Fin.le_def, one, val_parts64]
      omega
    rw [Fin.ext_iff, index, Fin.sub_val_of_le less, val_parts64, one]
    omega
  have next : Fin.ofNat (2 ^ 64) i + 1 = Fin.ofNat (2 ^ 64) (i + 1) :=
    Fin.ext (by rw [Fin.val_add, index]; rfl)
  simp only [goRange_bound inner, bind, Except.bind, last, KeyRange.part]
  split_ifs with final
  · rw [goRange_end]
  · rw [next, goRange_bound (by omega)]
    rfl

end Split

/-! ## Texts -/

section Texts

variable {cs : List Char} {ds : List Nat} {s : String} {v : Fin (2 ^ 64)}

theorem hexValue_eq : hexValue = Hex.digit := rfl

theorem parseHex_eq_some_iff {acc n : Nat} : parseHex cs acc = some n ↔
    ∃ ds, Hex.Reads cs ds ∧ n = acc * 16 ^ ds.length + value 16 ds := by
  induction cs generalizing acc with
  | nil =>
    constructor
    · rintro ⟨⟩
      exact ⟨[], .nil, by simp⟩
    · rintro ⟨_, ⟨⟩, rfl⟩
      simp [parseHex]
  | cons c cs ih =>
    have step : ∀ d (ds : List Nat), acc * 16 ^ (d :: ds).length + value 16 (d :: ds) =
        (acc * 16 + d) * 16 ^ ds.length + value 16 ds := by
      intro d ds
      rw [value_cons, List.length_cons]
      ring
    rw [parseHex, Option.bind_eq_some_iff, hexValue_eq]
    constructor
    · rintro ⟨d, first, parsed⟩
      obtain ⟨ds, rest, rfl⟩ := ih.mp parsed
      exact ⟨d :: ds, .cons first rest, (step d ds).symm⟩
    · rintro ⟨_, _ | ⟨first, rest⟩, rfl⟩
      exact ⟨_, first, ih.mpr ⟨_, rest, step _ _⟩⟩

theorem parseBound_of_reads (reads : Hex.Reads s.toList ds) (even : ds.length % 2 = 0) (short : ds.length ≤ 16) :
    parseBound s = .ok (Fin.ofNat _ (aligned 16 16 ds)) := by
  have size := utf8ByteSize_of_reads reads
  have digits : parseHex s.toList 0 = some (value 16 ds) := parseHex_eq_some_iff.mpr ⟨ds, reads, by simp⟩
  unfold parseBound
  split_ifs with empty refused
  · rw [empty] at reads
    cases reads
    rfl
  · omega
  · simp only [digits, size, aligned, Nat.pow_mul, Nat.reducePow]

theorem parseBound_ok_iff : parseBound s = .ok v ↔ PgShard.parseBound s = .ok v := by
  constructor
  · intro parsed
    have accepted : ∃ ds, Hex.Reads s.toList ds ∧ ds.length % 2 = 0 ∧ ds.length ≤ 16 := by
      unfold parseBound at parsed
      split_ifs at parsed with empty refused
      · exact ⟨[], by rw [empty]; exact .nil, rfl, by simp⟩
      · split at parsed
        · cases parsed
        · obtain ⟨ds, reads, _⟩ := parseHex_eq_some_iff.mp ‹_›
          have size := utf8ByteSize_of_reads reads
          exact ⟨ds, reads, by omega, by omega⟩
    obtain ⟨ds, reads, even, short⟩ := accepted
    cases (parseBound_of_reads reads even short).symm.trans parsed
    exact PgShard.parseBound_of_reads reads even short
  · intro parsed
    obtain ⟨ds, reads, even, short, _⟩ := PgShard.parseBound_eq_ok_iff.mp parsed
    cases (PgShard.parseBound_of_reads reads even short).symm.trans parsed
    exact parseBound_of_reads reads even short

theorem parseBound_toOption (s : String) : (parseBound s).toOption = (PgShard.parseBound s).toOption :=
  Checked.toOption_eq fun _ => parseBound_ok_iff

theorem parseBound_cases (s : String) :
    (∃ v, parseBound s = .ok v ∧ PgShard.parseBound s = .ok v) ∨
      ∃ e f, parseBound s = .error e ∧ PgShard.parseBound s = .error f := by
  cases parsed : PgShard.parseBound s with
  | ok v => exact .inl ⟨v, parseBound_ok_iff.mpr parsed, rfl⟩
  | error f =>
    cases read : parseBound s with
    | ok v => cases parsed.symm.trans (parseBound_ok_iff.mp read)
    | error e => exact .inr ⟨e, f, rfl, rfl⟩

theorem parseKeyRange_toOption (s : String) : (parseKeyRange s).toOption = (KeyRange.fromStr s).toOption := by
  unfold parseKeyRange KeyRange.fromStr
  rw [show splitOnce s '-' = cutDash s from rfl]
  cases cutDash s with
  | none => rfl
  | some texts =>
    obtain ⟨startText, endText⟩ := texts
    dsimp only
    rcases parseBound_cases startText with ⟨start, go, rust⟩ | ⟨_, _, go, rust⟩
    · simp only [go, rust, bind, Except.bind]
      split_ifs with openEnd
      · rfl
      rcases parseBound_cases endText with ⟨stop, go, rust⟩ | ⟨_, _, go, rust⟩
      · simp only [go, rust, newKeyRange, Functor.map, Except.map]
        cases KeyRange.new start (some stop) <;> rfl
      · simp only [go, rust, Functor.map, Except.map]
        rfl
    · simp only [go, rust, bind, Except.bind]
      rfl

theorem trimZeroBytes_eq (digits : List Char) (even : digits.length % 2 = 0) :
    trimZeroBytes digits =
      if (digits.dropWhile (· == '0')).length % 2 = 1 then '0' :: digits.dropWhile (· == '0')
      else digits.dropWhile (· == '0') := by
  fun_induction trimZeroBytes digits with
  | case1 rest ih =>
    simp only [List.length_cons] at even
    rw [ih (by omega)]
    simp
  | case2 digits other =>
    rcases digits with _ | ⟨a, _ | ⟨b, rest⟩⟩
    · rfl
    · simp at even
    · by_cases zero : a = '0'
      · have second : b ≠ '0' := fun same => other rest (by rw [zero, same])
        rw [zero, List.dropWhile_cons_of_pos (by simp), List.dropWhile_cons_of_neg (by simpa using second), if_pos]
        simp only [List.length_cons] at even ⊢
        omega
      · rw [List.dropWhile_cons_of_neg (by simpa using zero), if_neg]
        omega

theorem formatBound_eq (v : Fin (2 ^ 64)) : formatBound v.val = PgShard.formatBound v := by
  unfold formatBound PgShard.formatBound
  have isZero : v.val = 0 ↔ v = 0 := Fin.val_eq_zero_iff
  simp only [isZero]
  by_cases zero : v = 0
  · rw [if_pos zero, if_pos zero]
  rw [if_neg zero, if_neg zero]
  obtain ⟨ds, reads, width, _⟩ := Hex.reads_padded (by norm_num : 0 < 16) (v.isLt.trans_eq (by norm_num))
  have even : (Hex.padded 16 v.val).reverse.length % 2 = 0 := by rw [List.length_reverse, reads.length, width]
  rw [trimZeroBytes_eq _ even]
  simp only [dropTrailingZeros, show hexDigits16 v.val = Hex.padded 16 v.val from rfl, List.length_reverse]
  split_ifs
  · rw [List.reverse_cons]
  · rfl

theorem rangeText_eq (r : KeyRange) : rangeText r = r.toText := by
  unfold rangeText KeyRange.toText
  rw [formatBound_eq]
  cases r.stop with
  | none => rfl
  | some e => simp only [formatBound_eq, Option.map_some, Option.getD_some]

end Texts

/-- The router's and the operator's key ranges agree: the splits fail together or give
the same ranges, and neither panics; the same texts parse, to the same values; and every
value has one text. -/
theorem keyRanges_agree :
    (∀ (r : KeyRange) (parts : Fin (2 ^ 32)),
      (∃ e message, r.splitEvenly parts = .error (.error e) ∧ (goRange r).splitEvenly parts = .error (.error message)) ∨
      ∃ ranges, r.splitEvenly parts = .ok ranges ∧
        (goRange r).splitEvenly parts = .ok (ranges.map fun f => .ofBounds f.start f.stop)) ∧
    (∀ s, (PgShard.parseBound s).toOption = (parseBound s).toOption) ∧
    (∀ s, (KeyRange.fromStr s).toOption = (parseKeyRange s).toOption) ∧
    (∀ v : Fin (2 ^ 64), PgShard.formatBound v = formatBound v.val) ∧
    ∀ r : KeyRange, r.toText = rangeText r := by
  refine ⟨fun r parts => ?_, fun s => (parseBound_toOption s).symm, fun s => (parseKeyRange_toOption s).symm,
    fun v => (formatBound_eq v).symm, fun r => (rangeText_eq r).symm⟩
  rcases @goRange_splitEvenly r parts with ⟨message, go, fails⟩ | ⟨succeeds, go⟩
  · exact .inl ⟨_, message, by rw [KeyRange.splitEvenly_eq, if_pos fails], go⟩
  · refine .inr ⟨_, by rw [KeyRange.splitEvenly_eq, if_neg succeeds], ?_⟩
    rw [go, List.map_map]
    rfl

end PgShard.Operator
