import Mathlib

/-! Numbers read from their digits, the most significant first. -/

namespace Positional

variable {b n d : Nat} {l m : List Nat}

def value (b : Nat) (digits : List Nat) : Nat :=
  Nat.ofDigits b digits.reverse

@[simp]
theorem value_nil : value b [] = 0 := rfl

theorem value_append : value b (l ++ m) = value b l * b ^ m.length + value b m := by
  simp only [value, List.reverse_append, Nat.ofDigits_append, List.length_reverse]
  ring

theorem value_cons : value b (d :: l) = d * b ^ l.length + value b l := by
  rw [← List.singleton_append, value_append]
  simp [value]

theorem value_append_zeros (k : Nat) : value b (l ++ List.replicate k 0) = value b l * b ^ k := by
  rw [value_append, List.length_replicate]
  simp [value]

theorem value_zeros_append (k : Nat) : value b (List.replicate k 0 ++ l) = value b l := by
  rw [value_append]
  simp [value]

theorem value_lt (base : 1 < b) (small : ∀ d ∈ l, d < b) : value b l < b ^ l.length := by
  have below := Nat.ofDigits_lt_base_pow_length base (l := l.reverse) (by simpa using small)
  simpa [value] using below

def aligned (b n : Nat) (digits : List Nat) : Nat :=
  value b digits * b ^ (n - digits.length)

theorem aligned_cons (short : l.length ≤ n) : aligned b (n + 1) (d :: l) = d * b ^ n + aligned b n l := by
  have width : n + 1 - (d :: l).length = n - l.length := by simp
  rw [aligned, aligned, width, value_cons, Nat.add_mul, Nat.mul_assoc, ← Nat.pow_add]
  congr 3
  omega

theorem aligned_lt (base : 1 < b) (short : l.length ≤ n) (small : ∀ d ∈ l, d < b) : aligned b n l < b ^ n := by
  have positive : 0 < b ^ (n - l.length) := Nat.pow_pos (by omega)
  calc aligned b n l < b ^ l.length * b ^ (n - l.length) := Nat.mul_lt_mul_of_pos_right (value_lt base small) positive
    _ = b ^ n := by rw [← Nat.pow_add, Nat.add_sub_cancel' short]

theorem aligned_le_of_lt (base : 1 < b) (shortLeft : l.length ≤ n) (shortRight : m.length ≤ n)
    (smallLeft : ∀ d ∈ l, d < b) (before : l < m) : aligned b n l ≤ aligned b n m := by
  induction l generalizing m n with
  | nil => simp [aligned]
  | cons d l ih =>
    cases m with
    | nil => exact absurd before (List.not_lt_nil _)
    | cons e m =>
      cases n with
      | zero => simp at shortLeft
      | succ n =>
        simp only [List.length_cons, Nat.succ_le_succ_iff] at shortLeft shortRight
        rw [aligned_cons shortLeft, aligned_cons shortRight]
        have smallRest : ∀ d ∈ l, d < b := fun d member => smallLeft d (List.mem_cons_of_mem _ member)
        rcases List.cons_lt_cons_iff.mp before with smaller | ⟨rfl, rest⟩
        · calc d * b ^ n + aligned b n l ≤ d * b ^ n + b ^ n :=
                Nat.add_le_add_left (aligned_lt base shortLeft smallRest).le _
            _ = (d + 1) * b ^ n := by ring
            _ ≤ e * b ^ n := Nat.mul_le_mul_right _ smaller
            _ ≤ e * b ^ n + aligned b n m := Nat.le_add_right _ _
        · exact Nat.add_le_add_left (ih shortLeft shortRight smallRest rest) _

end Positional
