import PgShard.Core.ShardFn
import PgShard.Operator.KeyRangeAgree
import PgShard.Operator.Routing
import PgShard.Topo.Model

/-! Canonical bounds sort as texts in the order of their values. -/

namespace PgShard.Operator

open Topo

variable {s t : String} {v w : Fin (2 ^ 64)} {a b : Shard}

def KeyBounds.Canonical (kr : KeyBounds) : Prop :=
  (∃ v, canonicalBound kr.start = .ok v) ∧ (kr.stop = "" ∨ ∃ v, canonicalBound kr.stop = .ok v)

theorem canonicalBound_lt_iff (left : canonicalBound s = .ok v) (right : canonicalBound t = .ok w) : s < t ↔ v < w := by
  rw [canonicalBound_iff.mp left, canonicalBound_iff.mp right]
  exact formatBound_lt_iff

theorem canonicalBound_utf8_lt_iff (left : canonicalBound s = .ok v) (right : canonicalBound t = .ok w) :
    utf8Bytes s < utf8Bytes t ↔ v < w := by
  rw [← canonicalBound_lt_iff left right, String.lt_iff, canonicalBound_iff.mp left, canonicalBound_iff.mp right]
  obtain ⟨ds, reads, _⟩ := formatBound_reads v
  obtain ⟨es, reads', _⟩ := formatBound_reads w
  exact reads.utf8_lt_iff reads'

theorem newKeyRange_start {start stop : Fin (2 ^ 64)} {r : KeyRange} (made : newKeyRange start stop = .ok r) :
    r.start = start := by
  unfold newKeyRange KeyRange.new at made
  by_cases below : start < stop
  · simp only [below, dif_pos] at made
    cases made
    rfl
  · simp only [below, dif_neg, not_false_eq_true] at made
    cases made

theorem toRange_start {kr : KeyBounds} {r : KeyRange} (canonical : canonicalBound kr.start = .ok v)
    (parsed : toRange kr = .ok r) : r.start = v := by
  have text := canonicalBound_iff.mp canonical
  have cut : cutDash (kr.start ++ "-" ++ kr.stop) = some (kr.start, kr.stop) :=
    splitOnce_append (text ▸ dash_not_mem_formatBound v)
  have start : parseBound kr.start = .ok v := by
    rw [parseBound_ok_iff, text]
    exact parseBound_formatBound v
  rw [toRange, parseKeyRange, cut] at parsed
  simp only [start, bind, Except.bind] at parsed
  split_ifs at parsed
  · cases parsed
    rfl
  · split at parsed
    · cases parsed
    · exact newKeyRange_start parsed

theorem start_le_of_shardKey_le (before : shardKey a ≤ shardKey b) : a.keyRange.start ≤ b.keyRange.start := by
  by_contra after
  exact before.not_gt (List.Lex.rel (not_le.mp after))

theorem toRange_start_le {r r' : KeyRange} (canonical : a.keyRange.Canonical) (canonical' : b.keyRange.Canonical)
    (before : shardKey a ≤ shardKey b) (parsed : toRange a.keyRange = .ok r) (parsed' : toRange b.keyRange = .ok r') :
    r.start ≤ r'.start := by
  obtain ⟨⟨v, start⟩, _⟩ := canonical
  obtain ⟨⟨w, start'⟩, _⟩ := canonical'
  rw [toRange_start start parsed, toRange_start start' parsed', ← not_lt, ← canonicalBound_lt_iff start' start,
    String.not_lt]
  exact start_le_of_shardKey_le before

def sortShards (shards : List Shard) : List Shard :=
  shards.insertionSort fun a b => shardKey a ≤ shardKey b

instance : Std.Total fun a b : Shard => shardKey a ≤ shardKey b :=
  ⟨fun a b => le_total (shardKey a) (shardKey b)⟩

instance : IsTrans Shard fun a b => shardKey a ≤ shardKey b :=
  ⟨fun _ _ _ first second => le_trans first second⟩

theorem sortShards_ordered (shards : List Shard) : (sortShards shards).Pairwise fun a b => shardKey a ≤ shardKey b :=
  List.pairwise_insertionSort _ shards

theorem compileShards_ordered {endpoints : List (String × RoutingEndpoint)} {shards : List Shard} {seen : Bool}
    {compiled : CompiledShards} (ordered : shards.Pairwise fun a b => shardKey a ≤ shardKey b)
    (canonical : ∀ s ∈ shards, s.keyRange.Canonical) (looped : compileShards endpoints shards seen = .ok compiled) :
    compiled.servingRanges.Pairwise (fun a b => a.start ≤ b.start) ∧
      ∀ r ∈ compiled.servingRanges, ∃ s ∈ shards, toRange s.keyRange = .ok r := by
  induction shards generalizing seen compiled with
  | nil =>
    cases looped
    simp
  | cons s rest ih =>
    obtain ⟨before, orderedRest⟩ := List.pairwise_cons.mp ordered
    obtain ⟨canonicalFirst, canonicalRest⟩ := List.forall_mem_cons.mp canonical
    unfold compileShards at looped
    split at looped
    · split at looped
      · cases looped
      · obtain ⟨others, loopedRest, done⟩ := Checked.bind_ok looped
        cases done
        obtain ⟨pairs, parsed⟩ := ih orderedRest canonicalRest loopedRest
        exact ⟨pairs, fun r member => (parsed r member).imp fun _ found => ⟨List.mem_cons_of_mem _ found.1, found.2⟩⟩
    · split at looped
      · cases looped
      · rename_i kr first
        obtain ⟨others, loopedRest, done⟩ := Checked.bind_ok looped
        cases done
        obtain ⟨pairs, parsed⟩ := ih orderedRest canonicalRest loopedRest
        have later : ∀ r ∈ others.servingRanges, ∃ s' ∈ s :: rest, toRange s'.keyRange = .ok r := fun r member =>
          (parsed r member).imp fun _ found => ⟨List.mem_cons_of_mem _ found.1, found.2⟩
        dsimp only
        split_ifs
        · refine ⟨List.pairwise_cons.mpr ⟨fun r member => ?_, pairs⟩, List.forall_mem_cons.mpr ⟨?_, later⟩⟩
          · obtain ⟨s', listed, found⟩ := parsed r member
            exact toRange_start_le canonicalFirst (canonicalRest s' listed) (before s' listed) first found
          · exact ⟨s, List.mem_cons_self, first⟩
        · exact ⟨pairs, later⟩

/-- The text form of key ranges is faithful and keeps their order: formatted bounds and
ranges parse back; a bound is accepted exactly if it is the text of its value; canonical
bounds compare, as bytes, like their values; so the shards that the compiler sorts are in
the order of their starts. -/
theorem bound_texts_ordered :
    (∀ v, PgShard.parseBound (PgShard.formatBound v) = .ok v) ∧
    (∀ r : KeyRange, KeyRange.fromStr r.toText = .ok r ∧ (Bounds.fromRange r).intoRange = .ok r) ∧
    (∀ s, (∃ v, canonicalBound s = .ok v) ↔ ∃ v, PgShard.parseBound s = .ok v ∧ PgShard.formatBound v = s) ∧
    (∀ s t v w, canonicalBound s = .ok v → canonicalBound t = .ok w → (utf8Bytes s < utf8Bytes t ↔ v < w)) ∧
    ∀ shards : List Shard, (∀ s ∈ shards, s.keyRange.Canonical) →
      ((sortShards shards).Pairwise fun a b =>
        ∀ r r', toRange a.keyRange = .ok r → toRange b.keyRange = .ok r' → r.start ≤ r'.start) ∧
      ∀ endpoints compiled, compileShards endpoints (sortShards shards) false = .ok compiled →
        compiled.servingRanges.Pairwise fun a b => a.start ≤ b.start := by
  refine ⟨parseBound_formatBound, fun r => ⟨r.fromStr_toText, Bounds.intoRange_fromRange r⟩, fun s => ?_,
    fun s t v w => canonicalBound_utf8_lt_iff, fun shards canonical => ?_⟩
  · simp only [canonicalBound_iff]
    constructor
    · rintro ⟨v, rfl⟩
      exact ⟨v, parseBound_formatBound v, rfl⟩
    · rintro ⟨v, _, same⟩
      exact ⟨v, same.symm⟩
  · have sorted : ∀ s ∈ sortShards shards, s.keyRange.Canonical := fun s member =>
      canonical s ((List.perm_insertionSort _ shards).subset member)
    refine ⟨(sortShards_ordered shards).imp_of_mem fun left right before r r' => ?_, fun endpoints compiled looped =>
      (compileShards_ordered (sortShards_ordered shards) sorted looped).1⟩
    exact toRange_start_le (sorted _ left) (sorted _ right) before

def quarterShards : List Shard :=
  [⟨"main-8001-max", "", none, "", "main", ⟨"8001", ""⟩, "", .data, true, false, "", "", "", "", []⟩,
    ⟨"main-min-80", "", none, "", "main", ⟨"", "80"⟩, "", .data, true, false, "", "", "", "", []⟩,
    ⟨"main-80-8001", "", none, "", "main", ⟨"80", "8001"⟩, "", .data, true, false, "", "", "", "", []⟩]

theorem bound_texts_ordered_quarters :
    (utf8Bytes "80" < utf8Bytes "8001" ↔ (2 ^ 63 : Fin (2 ^ 64)) < 2 ^ 63 + 2 ^ 48) ∧
    ∃ compiled, compileShards [] (sortShards quarterShards) false = .ok compiled ∧
      compiled.servingRanges.length = 3 ∧ compiled.servingRanges.Pairwise fun a b => a.start ≤ b.start := by
  have low : canonicalBound "80" = .ok (2 ^ 63) := by decide +kernel
  have high : canonicalBound "8001" = .ok (2 ^ 63 + 2 ^ 48) := by decide +kernel
  have zero : canonicalBound "" = .ok 0 := by decide +kernel
  refine ⟨bound_texts_ordered.2.2.2.1 _ _ _ _ low high, ?_⟩
  have canonical : ∀ s ∈ quarterShards, s.keyRange.Canonical := by
    simp only [quarterShards, List.forall_mem_cons, List.not_mem_nil, false_implies, implies_true, and_true]
    exact ⟨⟨⟨_, high⟩, .inl rfl⟩, ⟨⟨_, zero⟩, .inr ⟨_, low⟩⟩, ⟨_, low⟩, .inr ⟨_, high⟩⟩
  have three : ((compileShards [] (sortShards quarterShards) false).toOption.any
      (·.servingRanges.length == 3)) = true := by decide +kernel
  cases looped : compileShards [] (sortShards quarterShards) false with
  | error e =>
    rw [looped] at three
    cases three
  | ok compiled =>
    rw [looped] at three
    exact ⟨compiled, rfl, beq_iff_eq.mp three, (bound_texts_ordered.2.2.2.2 quarterShards canonical).2 [] compiled looped⟩

end PgShard.Operator
