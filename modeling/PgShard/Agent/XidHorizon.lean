import PgShard.Core.IntText
import PgShard.Lib.Quote

/-! How long the captured row versions of a publication can be trusted (`workflow.rs`). -/

namespace PgShard.Agent

def parseU32 (s : List Char) : Option UInt32 := do
  let n ← match s with
    | '+' :: ds => parseDigits ds
    | ds => parseDigits ds
  if n < 2 ^ 32 then some (UInt32.ofNat n) else none

/-- One round of the loop of `xid_recurrence_horizon`: a special id bounds nothing, and neither does the id that the
counter stands at. -/
def horizonStep (base : UInt64) (horizon : UInt64) (version : Int32 × UInt32 × String) : Except String UInt64 :=
  match parseU32 version.2.2.toList with
  | none => .error ("unparseable catalog xmin " ++ Quote.debug version.2.2)
  | some v =>
    if v < 3 then .ok horizon
    else
      let d := (v - base.toUInt32).toUInt64
      -- `horizon.min(d)`
      if d > 0 then .ok (if horizon ≤ d then horizon else d) else .ok horizon

def xidRecurrenceHorizon (base : UInt64) (versions : List (Int32 × UInt32 × String)) : Except String UInt64 :=
  versions.foldlM (horizonStep base) (UInt32.toUInt64 (2 ^ 32 - 1) + 1)

/-- The check of the streaming loop: `now.saturating_sub(base) < horizon`. -/
def versionsTrusted (base horizon now : UInt64) : Bool :=
  now.toNat - base.toNat < horizon.toNat

/-- A catalog row that was captured: its kind, its oid and the version it had. -/
structure Captured where
  kind : Int32
  oid : UInt32
  xmin : UInt32

def Captured.row (c : Captured) : Int32 × UInt32 × String :=
  (c.kind, c.oid, toString c.xmin.toNat)

theorem parseU32_toString (v : UInt32) : parseU32 (toString v.toNat).toList = some v := by
  have digit : ∀ c ∈ v.toNat.repr.toList, c.isDigit = true := by
    rw [Nat.toList_repr]
    exact fun c member => Nat.isDigit_of_mem_toDigits (by decide) (by decide) member
  change parseU32 v.toNat.repr.toList = some v
  unfold parseU32
  split
  · rename_i ds shape
    rw [shape] at digit
    exact absurd (digit _ List.mem_cons_self) (by decide)
  · rw [parseDigits_repr]
    have fits : v.toNat < 2 ^ 32 := v.toNat_lt
    simp only [Option.bind_eq_bind, Option.bind_some, if_pos fits, UInt32.ofNat_toNat]

variable {base horizon : UInt64} {c : Captured} {captured : List Captured} {k : Nat}

def Captured.Bounds (c : Captured) (base : UInt64) (k : Nat) : Prop :=
  3 ≤ c.xmin.toNat ∧ 0 < k ∧ k = (c.xmin - base.toUInt32).toNat

theorem Captured.bounds_iff : c.Bounds base k ↔
    3 ≤ c.xmin.toNat ∧ 0 < k ∧ k < 2 ^ 32 ∧ (base.toNat + k) % 2 ^ 32 = c.xmin.toNat := by
  have wide := c.xmin.toNat_lt
  have cut : (c.xmin - base.toUInt32).toNat = (2 ^ 32 - base.toNat % 2 ^ 32 + c.xmin.toNat) % 2 ^ 32 := by
    rw [UInt32.toNat_sub, UInt64.toNat_toUInt32]
  rw [Captured.Bounds, cut]
  constructor
  · rintro ⟨normal, positive, rfl⟩
    exact ⟨normal, positive, by omega, by omega⟩
  · rintro ⟨normal, positive, short, reached⟩
    exact ⟨normal, positive, by omega⟩

theorem horizonStep_row (base horizon : UInt64) (c : Captured) :
    ∃ next, horizonStep base horizon c.row = .ok next ∧ next ≤ horizon ∧
      (next = horizon ∨ c.Bounds base next.toNat) ∧ ∀ k, c.Bounds base k → next.toNat ≤ k := by
  have wide : ((c.xmin - base.toUInt32).toUInt64).toNat = (c.xmin - base.toUInt32).toNat := UInt32.toNat_toUInt64 _
  simp only [horizonStep, Captured.row, parseU32_toString]
  split_ifs with special ahead least
  · refine ⟨horizon, rfl, UInt64.le_refl _, .inl rfl, fun k bounds => ?_⟩
    have low := UInt32.lt_iff_toNat_lt.mp special
    have normal := bounds.1
    exact absurd low (not_lt.mpr normal)
  · refine ⟨horizon, rfl, UInt64.le_refl _, .inl rfl, ?_⟩
    rintro k ⟨-, -, rfl⟩
    exact wide ▸ UInt64.le_iff_toNat_le.mp least
  · have normal : 3 ≤ c.xmin.toNat := not_lt.mp fun low => special (UInt32.lt_iff_toNat_lt.mpr low)
    have positive := UInt64.lt_iff_toNat_lt.mp ahead
    refine ⟨_, rfl, UInt64.le_of_lt (UInt64.not_le.mp least), .inr ⟨normal, positive, wide⟩, ?_⟩
    rintro k ⟨-, -, rfl⟩
    exact wide.le
  · refine ⟨horizon, rfl, UInt64.le_refl _, .inl rfl, ?_⟩
    rintro k ⟨-, positive, rfl⟩
    exact absurd (UInt64.lt_iff_toNat_lt.mpr (wide ▸ positive)) ahead

theorem foldlM_horizonStep (base : UInt64) (captured : List Captured) (start : UInt64) :
    ∃ horizon, (captured.map Captured.row).foldlM (horizonStep base) start = .ok horizon ∧ horizon ≤ start ∧
      (horizon = start ∨ ∃ c ∈ captured, c.Bounds base horizon.toNat) ∧
      ∀ c ∈ captured, ∀ k, c.Bounds base k → horizon.toNat ≤ k := by
  induction captured generalizing start with
  | nil => exact ⟨start, rfl, UInt64.le_refl _, .inl rfl, nofun⟩
  | cons c rest ih =>
    obtain ⟨next, stepped, below, origin, least⟩ := horizonStep_row base start c
    obtain ⟨horizon, folded, below', origin', least'⟩ := ih next
    refine ⟨horizon, ?_, UInt64.le_trans below' below, ?_, ?_⟩
    · rw [List.map_cons, List.foldlM_cons, stepped]
      exact folded
    · rcases origin' with rfl | ⟨d, member, bounds⟩
      · exact origin.imp_right fun bounds => ⟨c, List.mem_cons_self, bounds⟩
      · exact .inr ⟨d, List.mem_cons_of_mem _ member, bounds⟩
    · intro d member k bounds
      rcases List.mem_cons.mp member with rfl | later
      · exact (UInt64.le_iff_toNat_le.mp below').trans (least k bounds)
      · exact least' d later k bounds

/-- The horizon is the least distance at which the counter meets a captured version that is no special id, or a whole
round if there is none. While the counter has not gone so far, no id assigned after `base` is a captured version in its
32-bit form; the special ids are never assigned. -/
theorem xid_horizon_exact (base : UInt64) (captured : List Captured) :
    ∃ horizon, xidRecurrenceHorizon base (captured.map Captured.row) = .ok horizon ∧
      IsLeast {k | 1 ≤ k ∧ k ≤ 2 ^ 32 ∧
        ((∃ c ∈ captured, 3 ≤ c.xmin.toNat ∧ (base.toNat + k) % 2 ^ 32 = c.xmin.toNat) ∨ k = 2 ^ 32)}
        horizon.toNat ∧
      ∀ now assigned : UInt64, versionsTrusted base horizon now = true → base < assigned → assigned ≤ now →
        3 ≤ assigned.toUInt32 → ∀ c ∈ captured, assigned.toUInt32 ≠ c.xmin := by
  have round : (UInt32.toUInt64 (2 ^ 32 - 1) + 1).toNat = 2 ^ 32 := rfl
  obtain ⟨horizon, folded, below, origin, least⟩ :=
    foldlM_horizonStep base captured (UInt32.toUInt64 (2 ^ 32 - 1) + 1)
  have atMost : horizon.toNat ≤ 2 ^ 32 := round ▸ UInt64.le_iff_toNat_le.mp below
  have meets : ∀ c ∈ captured, ∀ k, 1 ≤ k → 3 ≤ c.xmin.toNat → (base.toNat + k) % 2 ^ 32 = c.xmin.toNat →
      horizon.toNat ≤ k := by
    intro c member k positive normal reached
    by_cases short : k < 2 ^ 32
    · exact least c member k (Captured.bounds_iff.mpr ⟨normal, positive, short, reached⟩)
    · omega
  refine ⟨horizon, folded, ⟨?_, ?_⟩, ?_⟩
  · rcases origin with rfl | ⟨c, member, bounds⟩
    · exact ⟨by omega, atMost, .inr round⟩
    · obtain ⟨normal, positive, -, reached⟩ := Captured.bounds_iff.mp bounds
      exact ⟨positive, atMost, .inl ⟨c, member, normal, reached⟩⟩
  · rintro k ⟨positive, -, ⟨c, member, normal, reached⟩ | rfl⟩
    · exact meets c member k positive normal reached
    · exact atMost
  · intro now assigned trusted after until_ normal c member same
    simp only [versionsTrusted, decide_eq_true_eq] at trusted
    have low := UInt64.lt_iff_toNat_lt.mp after
    have high := UInt64.le_iff_toNat_le.mp until_
    have form : assigned.toNat % 2 ^ 32 = c.xmin.toNat := by rw [← same, UInt64.toNat_toUInt32]
    have normal' : 3 ≤ c.xmin.toNat := same ▸ UInt32.le_iff_toNat_le.mp normal
    have far := meets c member (assigned.toNat - base.toNat) (by omega) normal' (by rw [← form]; congr 1; omega)
    omega

end PgShard.Agent
