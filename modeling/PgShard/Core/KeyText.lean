import PgShard.Core.IntText

/-! Key values in PostgreSQL's own texts, and what the coercion makes of them. -/

namespace PgShard

inductive KeyDatum
  | int (v : Int64)
  | text (v : String)
  | uuid (v : Uuid)
  | bytea (v : List UInt8)

def hexPair (b : UInt8) : List Char :=
  [(b.toNat / 16).digitChar, (b.toNat % 16).digitChar]

namespace KeyDatum

def type : KeyDatum → ScalarType
  | .int _ => .int
  | .text _ => .text
  | .uuid _ => .uuid
  | .bytea _ => .bytea

def scalar : KeyDatum → ScalarValue
  | .int v => .int64 v
  | .text v => .text v
  | .uuid v => .uuid v
  | .bytea v => .bytea v

def uuidText (u : Uuid) : List Char :=
  let group (start count : Nat) := ((u.bytes.drop start).take count).flatMap hexPair
  group 0 4 ++ '-' :: group 4 2 ++ '-' :: group 6 2 ++ '-' :: group 8 2 ++ '-' :: group 10 6

def print : KeyDatum → String
  | .int v => toString v
  | .text v => v
  | .uuid v => String.ofList (uuidText v)
  | .bytea v => String.ofList ('\\' :: 'x' :: v.flatMap hexPair)

end KeyDatum

/-! ## Input functions -/

namespace PgInput

def isSpace (c : Char) : Bool :=
  (9 ≤ c.val && c.val ≤ 13) || c.val == 0x20

def skipSpace (s : List Char) : List Char :=
  ((s.dropWhile isSpace).reverse.dropWhile isSpace).reverse

def digits (digit : Char → Option Nat) (base : Nat) : List Char → Nat → Option Nat
  | [], acc => some acc
  | '_' :: c :: rest, acc => (digit c).bind fun d => digits digit base rest (acc * base + d)
  | c :: rest, acc => (digit c).bind fun d => digits digit base rest (acc * base + d)

def radix (base : Nat) (s : List Char) : Option Nat :=
  if s = [] then none
  else digits (fun c => (hexValue c).bind fun v => if v.toNat < base then some v.toNat else none) base s 0

def decimal : List Char → Option Nat
  | c :: rest => (digitValue c).bind (digits digitValue 10 rest)
  | [] => none

def magnitude : List Char → Option Nat
  | '0' :: x :: rest =>
    if x = 'x' ∨ x = 'X' then radix 16 rest
    else if x = 'o' ∨ x = 'O' then radix 8 rest
    else if x = 'b' ∨ x = 'B' then radix 2 rest
    else decimal ('0' :: x :: rest)
  | s => decimal s

def signed (number : List Char → Option Nat) : List Char → Option Int
  | '-' :: body => (number body).map fun n : Nat => -(n : Int)
  | '+' :: body => (number body).map Int.ofNat
  | body => (number body).map Int.ofNat

/-- `int8in`; the narrower types read a part of its texts, with the same values. -/
def int8in (s : List Char) : Option Int64 :=
  (signed magnitude (skipSpace s)).bind fun v => if -2 ^ 63 ≤ v ∧ v < 2 ^ 63 then some (Int64.ofInt v) else none

/-- The loop of `uuid_in` over the bytes from number `i` on; a hyphen may stand behind every second one but the last. -/
def uuidBytes : Nat → Nat → List Char → Option (List UInt8 × List Char)
  | 0, _, src => some ([], src)
  | n + 1, i, hi :: lo :: src => do
    let h ← hexValue hi
    let l ← hexValue lo
    let src := if src.head? = some '-' ∧ i % 2 = 1 ∧ i < 15 then src.tail else src
    let (bytes, rest) ← uuidBytes n (i + 1) src
    some ((h * 16 + l) :: bytes, rest)
  | _, _, _ => none

def uuidIn (s : List Char) : Option (List UInt8) := do
  let braces := s.head? == some '{'
  let (bytes, rest) ← uuidBytes 16 0 (if braces then s.tail else s)
  if rest = (if braces then ['}'] else []) then some bytes else none

def hexIn : List Char → Option (List UInt8)
  | [] => some []
  | [c] => if c = ' ' ∨ c = '\n' ∨ c = '\t' ∨ c = '\r' then some [] else none
  | hi :: lo :: rest =>
    if hi = ' ' ∨ hi = '\n' ∨ hi = '\t' ∨ hi = '\r' then hexIn (lo :: rest)
    else do
      let h ← hexValue hi
      let l ← hexValue lo
      let bytes ← hexIn rest
      some ((h * 16 + l) :: bytes)

def octal (c : Char) (limit : Char) : Option UInt8 :=
  if '0' ≤ c ∧ c ≤ limit then some (UInt8.ofNat (c.toNat - '0'.toNat)) else none

def escapeIn : List Char → Option (List UInt8)
  | [] => some []
  | '\\' :: '\\' :: rest => (escapeIn rest).map (92 :: ·)
  | '\\' :: a :: b :: c :: rest => do
    let a ← octal a '3'
    let b ← octal b '7'
    let c ← octal c '7'
    let bytes ← escapeIn rest
    some ((a * 64 + b * 8 + c) :: bytes)
  | '\\' :: _ => none
  | c :: rest => (escapeIn rest).map (String.utf8EncodeChar c ++ ·)

def byteain : List Char → Option (List UInt8)
  | '\\' :: 'x' :: hex => hexIn hex
  | s => escapeIn s

def read (t : ScalarType) (s : String) : Option KeyDatum :=
  match t with
  | .int => (int8in s.toList).map .int
  | .text => some (.text s)
  | .uuid => (uuidIn s.toList).bind fun bytes => if sized : bytes.length = 16 then some (.uuid ⟨bytes, sized⟩) else none
  | .bytea => (byteain s.toList).map .bytea

end PgInput

/-! ## Characters -/

section

variable {c : Char} {cs s : List Char}

theorem not_whitespace (low : 33 ≤ c.toNat) (high : c.toNat ≤ 126) : isWhitespace c = false := by
  have value : c.toNat = c.val.toNat := rfl
  simp only [isWhitespace, Bool.or_eq_false_iff, Bool.and_eq_false_iff, decide_eq_false_iff_not, beq_eq_false_iff_ne, ne_eq,
    UInt32.le_iff_toNat_le, UInt32.toNat_inj.symm, UInt32.reduceToNat]
  omega

theorem whitespace_of_isSpace (blank : PgInput.isSpace c = true) : isWhitespace c = true := by
  simp only [PgInput.isSpace, Bool.or_eq_true] at blank
  simp only [isWhitespace, Bool.or_eq_true]
  tauto

theorem range_of_digitValue (digit : (digitValue c).isSome = true) : 48 ≤ c.toNat ∧ c.toNat ≤ 57 := by
  unfold digitValue at digit
  split_ifs at digit with range
  · exact range
  · cases digit

theorem range_of_hexValue (digit : (hexValue c).isSome = true) :
    48 ≤ c.toNat ∧ c.toNat ≤ 57 ∨ 97 ≤ c.toNat ∧ c.toNat ≤ 102 ∨ 65 ≤ c.toNat ∧ c.toNat ≤ 70 := by
  unfold hexValue at digit
  split_ifs at digit with decimal lower upper
  · exact .inl decimal
  · exact .inr (.inl lower)
  · exact .inr (.inr upper)
  · cases digit

theorem hexValue_digitChar {d : Nat} (small : d < 16) : hexValue d.digitChar = some (UInt8.ofNat d) := by
  interval_cases d <;> rfl

theorem hexBytes_pairs (bytes : List UInt8) : hexBytes (bytes.flatMap hexPair) = some bytes := by
  induction bytes with
  | nil => rfl
  | cons b rest ih =>
    have small := b.toNat_lt
    have whole : UInt8.ofNat (b.toNat / 16) * 16 + UInt8.ofNat (b.toNat % 16) = b := by
      rw [← UInt8.toNat_inj]
      simp
      omega
    simp only [List.flatMap_cons, hexPair, List.cons_append, List.nil_append, hexBytes,
      hexValue_digitChar (show b.toNat / 16 < 16 by omega), hexValue_digitChar (Nat.mod_lt b.toNat (by decide)), ih,
      Option.bind_eq_bind, Option.bind_some, whole]

theorem hexValue_of_mem_pairs {bytes : List UInt8} (member : c ∈ bytes.flatMap hexPair) : (hexValue c).isSome = true := by
  obtain ⟨b, _, inside⟩ := List.mem_flatMap.mp member
  have small := b.toNat_lt
  simp only [hexPair, List.mem_cons, List.not_mem_nil, or_false] at inside
  rcases inside with rfl | rfl
  · rw [hexValue_digitChar (by omega)]
    rfl
  · rw [hexValue_digitChar (by omega)]
    rfl

theorem dropWhile_solid (solid : ∀ c ∈ cs, isWhitespace c = false) : cs.dropWhile isWhitespace = cs := by
  cases cs with
  | nil => rfl
  | cons c rest => exact List.dropWhile_cons_of_neg (by simp [solid c List.mem_cons_self])

theorem trim_of_solid (solid : ∀ c ∈ s, isWhitespace c = false) : trim s = s := by
  rw [trim, dropWhile_solid solid, dropWhile_solid fun c member => solid c (List.mem_reverse.mp member),
    List.reverse_reverse]

theorem trim_eq_skipSpace (solid : ∀ c ∈ PgInput.skipSpace s, isWhitespace c = false) : trim s = PgInput.skipSpace s := by
  have blanks : ∀ l : List Char, ∀ c ∈ l.takeWhile PgInput.isSpace, isWhitespace c = true := fun l c member =>
    whitespace_of_isSpace (List.mem_takeWhile_imp member)
  let rest := s.dropWhile PgInput.isSpace
  have back : rest = PgInput.skipSpace s ++ (rest.reverse.takeWhile PgInput.isSpace).reverse := by
    rw [PgInput.skipSpace, ← List.reverse_append, List.takeWhile_append_dropWhile, List.reverse_reverse]
  have front : s.dropWhile isWhitespace = rest.dropWhile isWhitespace := by
    conv_lhs => rw [← List.takeWhile_append_dropWhile (p := PgInput.isSpace) (l := s)]
    exact List.dropWhile_append_of_pos (blanks s)
  rw [trim, front, back]
  generalize PgInput.skipSpace s = core at solid ⊢
  cases core with
  | nil =>
    have gone : ((rest.reverse.takeWhile PgInput.isSpace).reverse).dropWhile isWhitespace = [] :=
      List.dropWhile_eq_nil_iff.mpr fun c member => blanks _ c (List.mem_reverse.mp member)
    rw [List.nil_append, gone]
    rfl
  | cons c core =>
    rw [List.cons_append, List.dropWhile_cons_of_neg (by simp [solid c List.mem_cons_self]), ← List.cons_append,
      List.reverse_append, List.reverse_reverse, List.dropWhile_append_of_pos (blanks _),
      dropWhile_solid fun d member => solid d (List.mem_reverse.mp member), List.reverse_reverse]

end

/-! ## Integers -/

namespace PgInput

variable {digit : Char → Option Nat} {base acc n m : Nat} {cs s : List Char}

theorem digits_chars (read : digits digit base cs acc = some n) : ∀ c ∈ cs, c = '_' ∨ (digit c).isSome = true := by
  fun_induction digits digit base cs acc with
  | case1 => exact nofun
  | case2 acc c rest ih =>
    obtain ⟨d, own, read⟩ := Option.bind_eq_some_iff.mp read
    exact List.forall_mem_cons.mpr ⟨.inl rfl, List.forall_mem_cons.mpr ⟨.inr (by simp [own]), ih d read⟩⟩
  | case3 acc c rest _ ih =>
    obtain ⟨d, own, read⟩ := Option.bind_eq_some_iff.mp read
    exact List.forall_mem_cons.mpr ⟨.inr (by simp [own]), ih d read⟩

theorem decimal_solid (read : decimal cs = some n) : ∀ c ∈ cs, isWhitespace c = false := by
  cases cs with
  | nil => cases read
  | cons c rest =>
    obtain ⟨d, own, read⟩ := Option.bind_eq_some_iff.mp read
    have solid : ∀ c, (digitValue c).isSome = true → isWhitespace c = false := fun c digit => by
      have := range_of_digitValue digit
      exact not_whitespace (by omega) (by omega)
    refine List.forall_mem_cons.mpr ⟨solid c (by simp [own]), fun e member => ?_⟩
    rcases digits_chars read e member with rfl | digit
    · decide
    · exact solid e digit

theorem radix_solid (read : radix base cs = some n) : ∀ c ∈ cs, isWhitespace c = false := by
  intro c member
  unfold radix at read
  split_ifs at read
  rcases digits_chars read c member with rfl | digit
  · decide
  · have : (hexValue c).isSome = true := by
      cases value : hexValue c with
      | none => simp [value] at digit
      | some v => rfl
    have := range_of_hexValue this
    exact not_whitespace (by omega) (by omega)

theorem magnitude_solid (read : magnitude cs = some n) : ∀ c ∈ cs, isWhitespace c = false := by
  unfold magnitude at read
  split at read
  · rename_i x rest
    split_ifs at read with hex octal binary
    · rcases hex with rfl | rfl <;> simpa [List.forall_mem_cons] using ⟨by decide, by decide, radix_solid read⟩
    · rcases octal with rfl | rfl <;> simpa [List.forall_mem_cons] using ⟨by decide, by decide, radix_solid read⟩
    · rcases binary with rfl | rfl <;> simpa [List.forall_mem_cons] using ⟨by decide, by decide, radix_solid read⟩
    · exact decimal_solid read
  · exact decimal_solid read

theorem magnitude_parseDigits (read : magnitude cs = some n) (parsed : parseDigits cs = some m) : n = m := by
  have fold : ∀ {rest acc n m}, digits digitValue 10 rest acc = some n →
      rest.foldlM (fun acc c => (digitValue c).map (acc * 10 + ·)) acc = some m → n = m := by
    intro rest acc n m read parsed
    fun_induction digits digitValue 10 rest acc with
    | case1 =>
      cases read
      cases parsed
      rfl
    | case2 => cases parsed
    | case3 acc c rest _ ih =>
      obtain ⟨d, own, read⟩ := Option.bind_eq_some_iff.mp read
      rw [List.foldlM_cons, own] at parsed
      exact ih d read parsed
  have plain : decimal cs = some n → n = m := by
    cases cs with
    | nil => cases parsed
    | cons c rest =>
      intro read
      obtain ⟨d, own, read⟩ := Option.bind_eq_some_iff.mp read
      rw [parseDigits, List.foldlM_cons, own] at parsed
      · exact fold read (by simpa using parsed)
      · exact List.cons_ne_nil c rest
  unfold magnitude at read
  split at read
  · split_ifs at read with hex octal binary
    · rcases hex with rfl | rfl <;> cases parsed
    · rcases octal with rfl | rfl <;> cases parsed
    · rcases binary with rfl | rfl <;> cases parsed
    · exact plain read
  · exact plain read

theorem parseDigits_solid (parsed : parseDigits cs = some n) : ∀ c ∈ cs, isWhitespace c = false := by
  have fold : ∀ {rest : List Char} {acc n}, rest.foldlM (fun acc c => (digitValue c).map (acc * 10 + ·)) acc = some n →
      ∀ c ∈ rest, (digitValue c).isSome = true := by
    intro rest
    induction rest with
    | nil => exact fun _ => nofun
    | cons c rest ih =>
      intro acc n parsed
      rw [List.foldlM_cons] at parsed
      obtain ⟨_, own, parsed⟩ := Option.bind_eq_some_iff.mp parsed
      obtain ⟨d, own, _⟩ := Option.map_eq_some_iff.mp own
      exact List.forall_mem_cons.mpr ⟨by simp [own], ih parsed⟩
  intro c member
  unfold parseDigits at parsed
  split at parsed
  · cases member
  · have := range_of_digitValue (fold parsed c member)
    exact not_whitespace (by omega) (by omega)

theorem signed_solid {number : List Char → Option Nat} {i : Int}
    (solid : ∀ {body n}, number body = some n → ∀ c ∈ body, isWhitespace c = false) (read : signed number s = some i) :
    ∀ c ∈ s, isWhitespace c = false := by
  unfold signed at read
  split at read <;> obtain ⟨n, own, rfl⟩ := Option.map_eq_some_iff.mp read
  · exact List.forall_mem_cons.mpr ⟨by decide, solid own⟩
  · exact List.forall_mem_cons.mpr ⟨by decide, solid own⟩
  · exact solid own

theorem signed_parseDigits {i j : Int} (read : signed magnitude s = some i) (parsed : signed parseDigits s = some j) :
    j = i := by
  unfold signed at read parsed
  split at read <;> simp only at parsed <;> obtain ⟨n, own, rfl⟩ := Option.map_eq_some_iff.mp read <;>
    obtain ⟨m, digits, rfl⟩ := Option.map_eq_some_iff.mp parsed <;> rw [magnitude_parseDigits own digits]

theorem parseI64_eq (s : List Char) : parseI64 s =
    (signed parseDigits s).bind fun v => if -2 ^ 63 ≤ v ∧ v < 2 ^ 63 then some (Int64.ofInt v) else none := by
  unfold parseI64
  generalize (fun v : Int => if -2 ^ 63 ≤ v ∧ v < 2 ^ 63 then some (Int64.ofInt v) else none) = ranged
  split
  · rw [signed]
    cases parseDigits _ <;> rfl
  · rw [signed]
    cases parseDigits _ <;> rfl
  · rename_i minus plus
    rw [signed]
    · cases parseDigits _ <;> rfl
    · exact minus
    · exact plus

theorem int8in_coerceInt {t : String} {v w : Int64} (read : int8in t.toList = some v) (coerced : coerceInt t = some w) :
    w = v := by
  obtain ⟨i, number, ranged⟩ := Option.bind_eq_some_iff.mp read
  rw [coerceInt, trim_eq_skipSpace (signed_solid magnitude_solid number), parseI64_eq] at coerced
  obtain ⟨j, parsed, ranged'⟩ := Option.bind_eq_some_iff.mp coerced
  rw [signed_parseDigits number parsed, ranged] at ranged'
  exact (Option.some.inj ranged').symm

theorem coerceInt_toString (v : Int64) : coerceInt (toString v) = some v := by
  have parsed := parseI64_toString v
  have read := parsed
  rw [parseI64_eq] at read
  obtain ⟨_, number, _⟩ := Option.bind_eq_some_iff.mp read
  rw [coerceInt, trim_of_solid (signed_solid parseDigits_solid number)]
  exact parsed

end PgInput

/-! ## Uuids -/

theorem coerceUuid_of_body {body : List Char} {u : Uuid} {s : String}
    (chars : ∀ c ∈ body, c = '-' ∨ (hexValue c).isSome = true) (hex : hexBytes (body.filter (· ≠ '-')) = some u.bytes)
    (shape : s.toList = body ∨ s.toList = '\x7b' :: body ++ ['\x7d']) : coerceUuid s = some u := by
  have range : ∀ c ∈ body, 45 ≤ c.toNat ∧ c.toNat ≤ 102 := fun c member => by
    rcases chars c member with rfl | digit
    · decide
    · have := range_of_hexValue digit
      omega
  have solid : ∀ c ∈ body, isWhitespace c = false := fun c member =>
    not_whitespace (by have := range c member; omega) (by have := range c member; omega)
  have inner : ∀ c ∈ body, c.toNat ≠ 123 ∧ c.toNat ≠ 125 := fun c member => by
    have := range c member
    omega
  have head : body.head? ≠ some '\x7b' := fun head => (inner _ (List.mem_of_head? head)).1 rfl
  have last : body.getLast? ≠ some '\x7d' := fun last => (inner _ (List.mem_of_getLast? last)).2 rfl
  rcases shape with shape | shape
  · rw [coerceUuid, shape, trim_of_solid solid]
    rw [beq_eq_false_iff_ne.mpr head, beq_eq_false_iff_ne.mpr last]
    change (hexBytes _).bind _ = _
    rw [hex]
    exact dif_pos u.length_eq
  · have whole : ∀ c ∈ '\x7b' :: body ++ ['\x7d'], isWhitespace c = false := by
      simp only [List.cons_append, List.mem_cons, List.mem_append, List.not_mem_nil, or_false]
      rintro c (rfl | inside | rfl)
      · decide
      · exact solid c inside
      · decide
    have last : ('\x7b' :: body ++ ['\x7d']).getLast? = some '\x7d' := List.getLast?_concat
    rw [coerceUuid, shape, trim_of_solid whole, last]
    change (hexBytes (((body ++ ['\x7d']).dropLast).filter _)).bind _ = _
    rw [List.dropLast_concat, hex]
    exact dif_pos u.length_eq

theorem ne_hyphen {c : Char} (digit : (hexValue c).isSome = true) : c ≠ '-' := by
  rintro rfl
  exact absurd digit (by decide)

theorem filter_pairs (bytes : List UInt8) : (bytes.flatMap hexPair).filter (· ≠ '-') = bytes.flatMap hexPair :=
  List.filter_eq_self.mpr fun _ member => decide_eq_true (ne_hyphen (hexValue_of_mem_pairs member))

theorem coerceUuid_uuidText (u : Uuid) : coerceUuid (String.ofList (KeyDatum.uuidText u)) = some u := by
  have cut : ∀ i n : Nat, (u.bytes.drop i).take n ++ u.bytes.drop (i + n) = u.bytes.drop i := fun i n => by
    rw [← List.drop_drop, List.take_append_drop]
  have last : (u.bytes.drop 10).take 6 = u.bytes.drop 10 := List.take_of_length_le (by simp [u.length_eq])
  refine coerceUuid_of_body (fun c member => ?_) ?_ (.inl String.toList_ofList)
  · simp only [KeyDatum.uuidText, List.mem_append, List.mem_cons] at member
    have pairs : ∀ {bytes : List UInt8}, c ∈ bytes.flatMap hexPair → (hexValue c).isSome = true := hexValue_of_mem_pairs
    tauto
  · simp only [KeyDatum.uuidText, List.cons_append, List.append_assoc, List.filter_append, List.filter_cons, filter_pairs,
      ne_eq, not_true_eq_false, decide_false, Bool.false_eq_true, if_false]
    rw [last, ← List.flatMap_append, ← List.flatMap_append, ← List.flatMap_append, ← List.flatMap_append, cut 8 2, cut 6 2,
      cut 4 2, cut 0 4, List.drop_zero, hexBytes_pairs]

namespace PgInput

variable {n i : Nat} {src rest : List Char} {bytes : List UInt8}

theorem uuidBytes_spec (read : uuidBytes n i src = some (bytes, rest)) :
    ∃ body, src = body ++ rest ∧ hexBytes (body.filter (· ≠ '-')) = some bytes ∧
      ∀ c ∈ body, c = '-' ∨ (hexValue c).isSome = true := by
  induction n generalizing i src bytes with
  | zero =>
    cases read
    exact ⟨[], rfl, rfl, nofun⟩
  | succ n ih =>
    match src, read with
    | hi :: lo :: src, read =>
      obtain ⟨h, high, read⟩ := Option.bind_eq_some_iff.mp read
      obtain ⟨l, low, read⟩ := Option.bind_eq_some_iff.mp read
      obtain ⟨⟨bytes, rest⟩, read, shape⟩ := Option.bind_eq_some_iff.mp read
      cases shape
      obtain ⟨body, split, hex, chars⟩ := ih read
      have digits : (hexValue hi).isSome = true ∧ (hexValue lo).isSome = true := by simp [high, low]
      have whole : hexBytes ((hi :: lo :: body).filter (· ≠ '-')) = some ((h * 16 + l) :: bytes) := by
        rw [List.filter_cons_of_pos (by simpa using ne_hyphen digits.1),
          List.filter_cons_of_pos (by simpa using ne_hyphen digits.2), hexBytes, high, low, hex]
        rfl
      split_ifs at split with hyphen
      · obtain ⟨c, tail⟩ : ∃ tail, src = '-' :: tail := List.head?_eq_some_iff.mp hyphen.1
        subst tail
        refine ⟨hi :: lo :: '-' :: body, by simpa using split, ?_, ?_⟩
        · rw [List.filter_cons, List.filter_cons] at whole ⊢
          exact whole
        · simp only [List.forall_mem_cons]
          exact ⟨.inr digits.1, .inr digits.2, .inl trivial, chars⟩
      · refine ⟨hi :: lo :: body, by simpa using split, whole, ?_⟩
        simp only [List.forall_mem_cons]
        exact ⟨.inr digits.1, .inr digits.2, chars⟩

theorem uuidIn_coerceUuid {s : String} {u : Uuid} (read : uuidIn s.toList = some u.bytes) : coerceUuid s = some u := by
  obtain ⟨⟨bytes, rest⟩, read, ending⟩ := Option.bind_eq_some_iff.mp read
  obtain ⟨body, split, hex, chars⟩ := uuidBytes_spec read
  obtain ⟨closed, same⟩ := Option.ite_none_right_eq_some.mp ending
  cases same
  refine coerceUuid_of_body chars hex ?_
  split_ifs at split with braces
  · obtain ⟨tail, shape⟩ := List.head?_eq_some_iff.mp (beq_iff_eq.mp braces)
    rw [if_pos braces] at closed
    rw [shape, closed] at split
    rw [shape]
    exact .inr (congrArg _ split)
  · rw [if_neg braces] at closed
    rw [closed, List.append_nil] at split
    exact .inl split

theorem hexIn_of_hexBytes {cs : List Char} (hex : hexBytes cs = some bytes) : hexIn cs = some bytes := by
  fun_induction hexBytes cs generalizing bytes with
  | case1 => exact hex
  | case2 => cases hex
  | case3 hi lo rest ih =>
    obtain ⟨h, high, hex⟩ := Option.bind_eq_some_iff.mp hex
    obtain ⟨l, low, hex⟩ := Option.bind_eq_some_iff.mp hex
    obtain ⟨tail, hex, shape⟩ := Option.bind_eq_some_iff.mp hex
    have solid : ¬(hi = ' ' ∨ hi = '\n' ∨ hi = '\t' ∨ hi = '\r') := by
      rintro (rfl | rfl | rfl | rfl) <;> cases high
    rw [hexIn, if_neg solid, high, low, ih hex]
    exact shape

theorem byteain_coerceBytea {s : String} {a b : List UInt8} (read : byteain s.toList = some a)
    (coerced : coerceBytea s = some b) : b = a := by
  unfold coerceBytea at coerced
  split at coerced
  · rename_i hex shape
    rw [shape, byteain, hexIn_of_hexBytes coerced] at read
    exact Option.some.inj read
  · cases coerced

theorem read_coerce {t : ScalarType} {s : String} {v : KeyDatum} {w : ScalarValue} (own : read t s = some v)
    (coerced : t.coerce (.text s) = some w) : w = v.scalar := by
  cases t with
  | int =>
    obtain ⟨a, number, rfl⟩ := Option.map_eq_some_iff.mp own
    obtain ⟨b, parsed, rfl⟩ := Option.map_eq_some_iff.mp coerced
    exact congrArg ScalarValue.int64 (int8in_coerceInt number parsed)
  | text =>
    cases own
    cases coerced
    rfl
  | uuid =>
    obtain ⟨bytes, digits, sized⟩ := Option.bind_eq_some_iff.mp own
    obtain ⟨b, parsed, rfl⟩ := Option.map_eq_some_iff.mp coerced
    split_ifs at sized with length
    cases sized
    rw [uuidIn_coerceUuid (u := ⟨bytes, length⟩) digits] at parsed
    cases parsed
    rfl
  | bytea =>
    obtain ⟨a, digits, rfl⟩ := Option.map_eq_some_iff.mp own
    obtain ⟨b, parsed, rfl⟩ := Option.map_eq_some_iff.mp coerced
    exact congrArg ScalarValue.bytea (byteain_coerceBytea digits parsed)

end PgInput

theorem KeyDatum.coerce_print (v : KeyDatum) : v.type.coerce (.text v.print) = some v.scalar := by
  cases v with
  | int v => exact congrArg (Option.map ScalarValue.int64) (PgInput.coerceInt_toString v)
  | text v => rfl
  | uuid v => exact congrArg (Option.map ScalarValue.uuid) (coerceUuid_uuidText v)
  | bytea v =>
    have hex : coerceBytea (String.ofList ('\\' :: 'x' :: v.flatMap hexPair)) = some v := by
      rw [coerceBytea, String.toList_ofList]
      exact hexBytes_pairs v
    exact congrArg (Option.map ScalarValue.bytea) hex

theorem coerce_coerced {t : ScalarType} {v w : ScalarValue} (coerced : t.coerce v = some w) : t.coerce w = some w := by
  unfold ScalarType.coerce at coerced
  split at coerced
  case h_10 => cases coerced
  case h_4 | h_6 | h_8 =>
    obtain ⟨_, _, rfl⟩ := Option.map_eq_some_iff.mp coerced
    rfl
  all_goals
    cases coerced
    rfl

end PgShard
