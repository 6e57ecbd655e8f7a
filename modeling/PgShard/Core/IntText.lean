import PgShard.Core.ShardFn

/-! Integers as PostgreSQL writes them and as the router reads them back. -/

namespace PgShard

theorem digitValue_digitChar {d : Nat} (small : d < 10) : digitValue d.digitChar = some d := by
  interval_cases d <;> rfl

theorem foldlM_toDigits (n : Nat) :
    (Nat.toDigits 10 n).foldlM (fun acc c => (digitValue c).map (acc * 10 + ·)) 0 = some n := by
  induction n using Nat.strong_induction_on with
  | _ n ih =>
    rw [Nat.toDigits_eq_if (by decide)]
    split_ifs with single
    · simp [digitValue_digitChar single]
    · rw [List.foldlM_append, ih (n / 10) (by omega)]
      simp only [Option.bind_eq_bind, Option.bind_some, List.foldlM_cons, List.foldlM_nil,
        digitValue_digitChar (Nat.mod_lt n (by decide)), Option.map_some]
      exact congrArg some (by omega)

theorem toDigits_ne_nil (n : Nat) : Nat.toDigits 10 n ≠ [] := by
  rw [Nat.toDigits_eq_if (by decide)]
  split_ifs <;> simp

theorem parseDigits_repr (n : Nat) : parseDigits n.repr.toList = some n := by
  rw [Nat.toList_repr]
  cases digits : Nat.toDigits 10 n with
  | nil => exact absurd digits (toDigits_ne_nil n)
  | cons c cs =>
    rw [parseDigits, ← digits, foldlM_toDigits]
    exact nofun

theorem int64_in_range {v : Int} (low : -2 ^ 63 ≤ v) (high : v < 2 ^ 63) :
    (if -2 ^ 63 ≤ v ∧ v < 2 ^ 63 then some (Int64.ofInt v) else none) = some (Int64.ofInt v) :=
  if_pos ⟨low, high⟩

theorem parseI64_repr {n : Nat} (fits : n < 2 ^ 63) : parseI64 n.repr.toList = some (Int64.ofInt n) := by
  have read := parseDigits_repr n
  have digit : ∀ c ∈ n.repr.toList, c.isDigit = true := by
    rw [Nat.toList_repr]
    exact fun c member => Nat.isDigit_of_mem_toDigits (by decide) (by decide) member
  unfold parseI64
  split
  · rename_i ds shape
    rw [shape] at digit
    exact absurd (digit _ List.mem_cons_self) (by decide)
  · rename_i ds shape
    rw [shape] at digit
    exact absurd (digit _ List.mem_cons_self) (by decide)
  · rw [read]
    exact Option.bind_eq_some_iff.mpr ⟨n, rfl, int64_in_range (by omega) (by omega)⟩

theorem parseI64_toString (v : Int64) : parseI64 (toString v).toList = some v := by
  have low := v.le_toInt
  have high := v.toInt_lt
  have whole := v.ofInt_toInt
  change parseI64 (toString v.toInt).toList = some v
  cases number : v.toInt with
  | ofNat n =>
    rw [number] at high whole
    rw [← whole]
    exact parseI64_repr (by simpa using high)
  | negSucc n =>
    rw [number] at low whole
    have written : (toString (Int.negSucc n)).toList = '-' :: (n + 1).repr.toList := by
      change ("-" ++ (n + 1).repr).toList = _
      rw [String.toList_append]
      rfl
    rw [written, parseI64, parseDigits_repr, ← whole]
    exact Option.bind_eq_some_iff.mpr ⟨Int.negSucc n, rfl, int64_in_range low (by omega)⟩

end PgShard
