import PgShard.Lib.Positional

/-! Texts of lowercase hex digits: what they read as, how they compare, and the text of
a number at a fixed width. -/

namespace Hex

open Positional

variable {c e : Char} {cs es : List Char} {d : Nat} {ds : List Nat}

def digit (c : Char) : Option Nat :=
  if '0' ≤ c ∧ c ≤ '9' then some (c.toNat - '0'.toNat)
  else if 'a' ≤ c ∧ c ≤ 'f' then some (c.toNat - 'a'.toNat + 10)
  else none

theorem digit_eq_some_iff : digit c = some d ↔
    '0'.toNat ≤ c.toNat ∧ c.toNat ≤ '9'.toNat ∧ d = c.toNat - '0'.toNat ∨
      'a'.toNat ≤ c.toNat ∧ c.toNat ≤ 'f'.toNat ∧ d = c.toNat - 'a'.toNat + 10 := by
  have below : '9'.toNat < 'a'.toNat := by decide
  have order : ∀ x y : Char, x ≤ y ↔ x.toNat ≤ y.toNat := fun _ _ => Iff.rfl
  unfold digit
  simp only [order]
  split_ifs with decimal letter
  · rw [Option.some.injEq]
    omega
  · rw [Option.some.injEq]
    omega
  · exact iff_of_false nofun (by omega)

theorem digit_lt (read : digit c = some d) : d < 16 := by
  rcases digit_eq_some_iff.mp read with ⟨low, high, rfl⟩ | ⟨low, high, rfl⟩
  · have := (by decide : '9'.toNat = '0'.toNat + 9)
    omega
  · have := (by decide : 'f'.toNat = 'a'.toNat + 5)
    omega

theorem digit_lt_iff {f : Nat} (left : digit c = some d) (right : digit e = some f) : c < e ↔ d < f := by
  have order : c < e ↔ c.toNat < e.toNat := Iff.rfl
  have zero : '0'.toNat = 48 := rfl
  have nine : '9'.toNat = 57 := rfl
  have a : 'a'.toNat = 97 := rfl
  have last : 'f'.toNat = 102 := rfl
  rw [order]
  rcases digit_eq_some_iff.mp left with ⟨_, _, rfl⟩ | ⟨_, _, rfl⟩ <;>
    rcases digit_eq_some_iff.mp right with ⟨_, _, rfl⟩ | ⟨_, _, rfl⟩ <;> omega

theorem digit_digitChar (small : d < 16) : digit d.digitChar = some d := by
  interval_cases d <;> rfl

theorem digit_ascii (read : digit c = some d) : c.val ≤ 127 := by
  have last : 'f'.toNat = 102 := rfl
  have nine : '9'.toNat = 57 := rfl
  have : c.toNat ≤ 127 := by
    rcases digit_eq_some_iff.mp read with ⟨_, _, rfl⟩ | ⟨_, _, rfl⟩ <;> omega
  exact UInt32.le_iff_toNat_le.mpr this

theorem toUInt8_lt_iff (ascii : c.val ≤ 127) (ascii' : e.val ≤ 127) : c.val.toUInt8 < e.val.toUInt8 ↔ c < e := by
  have small := UInt32.le_iff_toNat_le.mp ascii
  have small' := UInt32.le_iff_toNat_le.mp ascii'
  have bound : (127 : UInt32).toNat = 127 := rfl
  rw [Char.lt_def, UInt8.lt_iff_toNat_lt, UInt32.lt_iff_toNat_lt, UInt32.toNat_toUInt8, UInt32.toNat_toUInt8]
  omega

theorem toUInt8_inj (ascii : c.val ≤ 127) (ascii' : e.val ≤ 127) : c.val.toUInt8 = e.val.toUInt8 ↔ c = e := by
  have small := UInt32.le_iff_toNat_le.mp ascii
  have small' := UInt32.le_iff_toNat_le.mp ascii'
  have bound : (127 : UInt32).toNat = 127 := rfl
  rw [Char.ext_iff, ← UInt8.toNat_inj, ← UInt32.toNat_inj, UInt32.toNat_toUInt8, UInt32.toNat_toUInt8]
  omega

def Reads (cs : List Char) (ds : List Nat) : Prop :=
  List.Forall₂ (fun c d => digit c = some d) cs ds

namespace Reads

theorem length (reads : Reads cs ds) : cs.length = ds.length :=
  List.Forall₂.length_eq reads

theorem small (reads : Reads cs ds) : ∀ d ∈ ds, d < 16 := by
  induction reads with
  | nil => simp
  | cons first _ ih => exact List.forall_mem_cons.mpr ⟨digit_lt first, ih⟩

theorem append {cs' : List Char} {ds' : List Nat} (reads : Reads cs ds) (rest : Reads cs' ds') :
    Reads (cs ++ cs') (ds ++ ds') :=
  List.rel_append reads rest

theorem of_append (reads : Reads (cs ++ es) ds) :
    ∃ first rest, ds = first ++ rest ∧ Reads cs first ∧ Reads es rest := by
  have first := List.forall₂_take cs.length reads
  have rest := List.forall₂_drop cs.length reads
  rw [List.take_left] at first
  rw [List.drop_left] at rest
  exact ⟨_, _, (List.take_append_drop _ _).symm, first, rest⟩

theorem eq_zeros {k : Nat} (reads : Reads (List.replicate k '0') ds) : ds = List.replicate k 0 := by
  induction k generalizing ds with
  | zero =>
    cases reads
    rfl
  | succ k ih =>
    rcases reads with _ | ⟨first, rest⟩
    cases first
    rw [ih rest]
    rfl

theorem zeros (k : Nat) : Reads (List.replicate k '0') (List.replicate k 0) := by
  induction k with
  | zero => exact .nil
  | succ k ih => exact .cons rfl ih

theorem lt_of_lt {es : List Char} {fs : List Nat} (left : Reads cs ds) (right : Reads es fs) (before : cs < es) :
    ds < fs := by
  induction left generalizing es fs with
  | nil =>
    cases right with
    | nil => exact absurd before (List.not_lt_nil _)
    | cons _ _ => exact List.nil_lt_cons _ _
  | cons first _ ih =>
    cases right with
    | nil => exact absurd before (List.not_lt_nil _)
    | cons other rest =>
      rcases List.cons_lt_cons_iff.mp before with smaller | ⟨rfl, later⟩
      · exact List.cons_lt_cons_iff.mpr (.inl ((digit_lt_iff first other).mp smaller))
      · cases first.symm.trans other
        exact List.cons_lt_cons_iff.mpr (.inr ⟨rfl, ih rest later⟩)

theorem utf8_lt_iff {es : List Char} {fs : List Nat} (left : Reads cs ds) (right : Reads es fs) :
    cs.flatMap String.utf8EncodeChar < es.flatMap String.utf8EncodeChar ↔ cs < es := by
  induction left generalizing es fs with
  | nil =>
    cases right with
    | nil => simp
    | cons first _ =>
      simp [String.utf8EncodeChar_eq_singleton (Char.utf8Size_eq_one_iff.mpr (digit_ascii first))]
  | cons first _ ih =>
    have byte := String.utf8EncodeChar_eq_singleton (Char.utf8Size_eq_one_iff.mpr (digit_ascii first))
    cases right with
    | nil => simp [byte]
    | cons other rest =>
      have byte' := String.utf8EncodeChar_eq_singleton (Char.utf8Size_eq_one_iff.mpr (digit_ascii other))
      rw [List.flatMap_cons, List.flatMap_cons, byte, byte', List.singleton_append, List.singleton_append,
        List.cons_lt_cons_iff, List.cons_lt_cons_iff, ih rest, toUInt8_lt_iff (digit_ascii first) (digit_ascii other),
        toUInt8_inj (digit_ascii first) (digit_ascii other)]

theorem utf8ByteSize (reads : Reads cs ds) : (String.ofList cs).utf8ByteSize = cs.length := by
  induction reads with
  | nil => rfl
  | cons first _ ih =>
    rw [String.ofList_cons, String.utf8ByteSize_append, String.utf8ByteSize_singleton, ih,
      Char.utf8Size_eq_one_iff.mpr (digit_ascii first), List.length_cons, Nat.add_comm]

end Reads

theorem reads_iff_all : (∃ ds, Reads cs ds) ↔ ∀ c ∈ cs, (digit c).isSome = true := by
  induction cs with
  | nil => exact iff_of_true ⟨[], .nil⟩ (by simp)
  | cons c cs ih =>
    rw [List.forall_mem_cons, ← ih, Option.isSome_iff_exists]
    constructor
    · rintro ⟨_, _ | ⟨first, rest⟩⟩
      exact ⟨⟨_, first⟩, _, rest⟩
    · rintro ⟨⟨d, first⟩, ds, rest⟩
      exact ⟨d :: ds, .cons first rest⟩

def padded (width n : Nat) : List Char :=
  List.replicate (width - (Nat.toDigits 16 n).length) '0' ++ Nat.toDigits 16 n

theorem reads_toDigits (n : Nat) : ∃ ds, Reads (Nat.toDigits 16 n) ds ∧ value 16 ds = n := by
  induction n using Nat.strong_induction_on with
  | _ n ih =>
    rw [Nat.toDigits_eq_if (by decide)]
    split_ifs with single
    · exact ⟨[n], .cons (digit_digitChar single) .nil, by simp [value_cons]⟩
    · obtain ⟨ds, reads, same⟩ := ih (n / 16) (by omega)
      refine ⟨ds ++ [n % 16], reads.append (.cons (digit_digitChar (by omega)) .nil), ?_⟩
      rw [value_append, same, value_cons, value_nil]
      simp only [List.length_singleton, List.length_nil]
      omega

theorem reads_padded {width n : Nat} (positive : 0 < width) (fits : n < 16 ^ width) :
    ∃ ds, Reads (padded width n) ds ∧ ds.length = width ∧ value 16 ds = n := by
  obtain ⟨ds, reads, same⟩ := reads_toDigits n
  have short := (Nat.length_toDigits_le_iff (by decide) positive).mpr fits
  refine ⟨_, (Reads.zeros _).append reads, ?_, ?_⟩
  · rw [List.length_append, List.length_replicate, ← reads.length]
    omega
  · rw [value_zeros_append, same]

end Hex
