import PgShard.Lib.Positional

/-! Numbers as bytes, the most significant first. -/

namespace Codec

open Positional

def be : Nat → Nat → List UInt8
  | 0, _ => []
  | n + 1, v => UInt8.ofNat (v / 256 ^ n) :: be n v

def beValue (bytes : List UInt8) : Nat :=
  value 256 (bytes.map UInt8.toNat)

variable {n v w : Nat} {bytes : List UInt8}

@[simp]
theorem length_be : (be n v).length = n := by
  induction n with
  | zero => rfl
  | succ n ih => rw [be, List.length_cons, ih]

theorem beValue_lt (bytes : List UInt8) : beValue bytes < 256 ^ bytes.length := by
  have small : ∀ d ∈ bytes.map UInt8.toNat, d < 256 := by
    intro d member
    obtain ⟨b, _, rfl⟩ := List.mem_map.mp member
    exact b.toNat_lt
  simpa [beValue] using value_lt (by norm_num) small

theorem beValue_be (fits : v < 256 ^ n) : beValue (be n v) = v := by
  have general : ∀ n, beValue (be n v) = v % 256 ^ n := by
    intro n
    induction n with
    | zero => simp [be, beValue, Nat.mod_one]
    | succ n ih =>
      have digits : beValue (be (n + 1) v) = v / 256 ^ n % 256 * 256 ^ n + beValue (be n v) := by
        simp [be, beValue, value_cons]
      rw [digits, ih, Nat.mod_pow_succ]
      ring
  rw [general, Nat.mod_eq_of_lt fits]

theorem be_add_mul : be n (w * 256 ^ n + v) = be n v := by
  induction n generalizing w with
  | zero => rfl
  | succ n ih =>
    have shift : w * 256 ^ (n + 1) + v = w * 256 * 256 ^ n + v := by ring
    have head : UInt8.ofNat ((w * 256 * 256 ^ n + v) / 256 ^ n) = UInt8.ofNat (v / 256 ^ n) := by
      rw [Nat.add_comm, Nat.add_mul_div_right _ _ (by positivity)]
      apply UInt8.toNat_inj.mp
      simp [UInt8.toNat_ofNat']
    rw [be, be, shift, head, ih]

theorem be_beValue (bytes : List UInt8) : be bytes.length (beValue bytes) = bytes := by
  induction bytes with
  | nil => rfl
  | cons b rest ih =>
    have split : beValue (b :: rest) = b.toNat * 256 ^ rest.length + beValue rest := by simp [beValue, value_cons]
    have head : (b.toNat * 256 ^ rest.length + beValue rest) / 256 ^ rest.length = b.toNat := by
      rw [Nat.add_comm, Nat.add_mul_div_right _ _ (by positivity), Nat.div_eq_of_lt (beValue_lt rest), Nat.zero_add]
    rw [List.length_cons, be, split, head, be_add_mul, ih]
    simp

def i32FromBeBytes (bytes : List UInt8) : Int :=
  (UInt32.ofNat (beValue bytes)).toInt32.toInt

theorem i32FromBeBytes_eq (bytes : List UInt8) (four : bytes.length = 4) :
    i32FromBeBytes bytes = if beValue bytes < 2 ^ 31 then (beValue bytes : Int) else beValue bytes - 2 ^ 32 := by
  have small := beValue_lt bytes
  rw [four] at small
  change (BitVec.ofNat 32 (beValue bytes)).toInt = _
  rw [BitVec.toInt_ofNat', Int.bmod_def]
  split_ifs <;> omega

end Codec
