import PgShard.Failover.Prune

/-! The latch of the identity over every run: the system id is written once, and the timeline grows by promotions. -/

namespace PgShard.Failover

open Versioned

variable {views : List InstanceView} {v : InstanceView} {current committed : String} {disagree parsed : Bool}
  {l : Latch}

/-! ## One poll -/

/-- An observed claim to be primary, with an id, by a pod that the status names. -/
structure Claims (current committed : String) (v : InstanceView) : Prop where
  primary : v.isPrimary = true
  observed : v.observed = true
  named : v.pod ≠ ""
  trusted : v.pod = current ∨ v.pod = committed
  reports : v.systemID ≠ 0

/-- What latching `l'` over `l` from the views may have changed. -/
structure Latches (disagree parsed : Bool) (current committed : String) (views : List InstanceView) (l l' : Latch) :
    Prop where
  identity : l'.systemID = l.systemID ∧ l'.expectedID = l.expectedID ∨
    parsed = true ∧ l.expectedID = 0 ∧ disagree = false ∧
      ∃ v ∈ views, Claims current committed v ∧ l'.systemID = toString v.systemID ∧ l'.expectedID = v.systemID
  grows : l.timeline ≤ l'.timeline
  known : l'.timeline ≠ l.timeline → l'.expectedID ≠ 0
  promoted : l'.timeline ≠ l.timeline → l.timeline ≠ 0 →
    ∃ v ∈ views, Claims current committed v ∧ v.pod = committed ∧ v.systemID = l'.expectedID ∧ v.timeline = l'.timeline

theorem Latches.refl : Latches disagree parsed current committed views l l where
  identity := .inl ⟨rfl, rfl⟩
  grows := le_refl _
  known changed := absurd rfl changed
  promoted changed := absurd rfl changed

theorem Latches.timeline {l₁ : Latch} (claims : Claims current committed v)
    (identity : l₁.systemID = l.systemID ∧ l₁.expectedID = l.expectedID ∨ parsed = true ∧ l.expectedID = 0 ∧
      disagree = false ∧ l₁.systemID = toString v.systemID ∧ l₁.expectedID = v.systemID)
    (same : l₁.timeline = l.timeline) :
    Latches disagree parsed current committed [v] l (if v.systemID != l₁.expectedID || v.timeline ≤ l₁.timeline then l₁
      else if l₁.timeline == 0 || v.pod == committed then { l₁ with timeline := v.timeline } else l₁) := by
  replace identity : l₁.systemID = l.systemID ∧ l₁.expectedID = l.expectedID ∨ parsed = true ∧ l.expectedID = 0 ∧
      disagree = false ∧ ∃ w ∈ [v], Claims current committed w ∧ l₁.systemID = toString w.systemID ∧
        l₁.expectedID = w.systemID :=
    identity.imp_right fun ⟨parses, unset, agree, set⟩ => ⟨parses, unset, agree, v, List.mem_singleton_self v, claims, set⟩
  have still : Latches disagree parsed current committed [v] l l₁ :=
    ⟨identity, same.ge, fun changed => absurd same changed, fun changed => absurd same changed⟩
  split
  · exact still
  rename_i moves
  simp only [Bool.or_eq_true, bne_iff_ne, decide_eq_true_eq, not_or, not_not, not_le] at moves
  split
  · rename_i allowed
    refine ⟨identity, same ▸ moves.2.le, fun _ => moves.1 ▸ claims.reports, fun _ nonzero => ?_⟩
    simp only [Bool.or_eq_true, beq_iff_eq, same, nonzero, false_or] at allowed
    exact ⟨v, List.mem_singleton_self v, claims, allowed, moves.1, rfl⟩
  · exact still

theorem latchView_latches :
    Latches disagree parsed current committed [v] l (latchView disagree parsed current committed l v) := by
  unfold latchView
  dsimp only
  split
  · exact .refl
  rename_i claims
  have claims : Claims current committed v := by
    simp only [Bool.or_eq_true, Bool.not_eq_true', not_or, Bool.not_eq_false, Bool.and_eq_true, bne_iff_ne,
      beq_iff_eq] at claims
    exact ⟨claims.1.1.1, claims.1.1.2, claims.1.2.1, claims.1.2.2, claims.2⟩
  split
  · exact .refl
  rename_i agree
  cases sets : parsed && l.expectedID == 0 with
  | false => exact Latches.timeline claims (.inl ⟨rfl, rfl⟩) rfl
  | true =>
    rw [sets, Bool.true_and, Bool.not_eq_true] at agree
    rw [Bool.and_eq_true, beq_iff_eq] at sets
    exact Latches.timeline claims (.inr ⟨sets.1, sets.2, agree, rfl, rfl⟩) rfl

theorem Latches.trans {first rest : List InstanceView} {l₁ l₂ : Latch} (nonneg : 0 ≤ l.timeline)
    (one : Latches disagree parsed current committed first l l₁)
    (two : Latches disagree parsed current committed rest l₁ l₂) :
    Latches disagree parsed current committed (first ++ rest) l l₂ := by
  -- an id that is known is kept
  have kept : l₁.expectedID ≠ 0 → l₂.systemID = l₁.systemID ∧ l₂.expectedID = l₁.expectedID := fun known =>
    two.identity.resolve_right fun sets => known sets.2.1
  refine ⟨?_, one.grows.trans two.grows, fun changed => ?_, fun changed nonzero => ?_⟩
  · rcases one.identity with ⟨system, expected⟩ | ⟨parses, unset, agree, v, member, claims, system, expected⟩
    · rcases two.identity with ⟨system', expected'⟩ | ⟨parses, unset, agree, v, member, claims, set⟩
      · exact .inl ⟨system'.trans system, expected'.trans expected⟩
      · exact .inr ⟨parses, expected ▸ unset, agree, v, List.mem_append_right _ member, claims, set⟩
    · obtain ⟨system', expected'⟩ := kept (expected ▸ claims.reports)
      exact .inr ⟨parses, unset, agree, v, List.mem_append_left _ member, claims, system'.trans system,
        expected'.trans expected⟩
  · by_cases later : l₂.timeline = l₁.timeline
    · have known := one.known (later ▸ changed)
      rw [(kept known).2]
      exact known
    · exact two.known later
  · by_cases later : l₂.timeline = l₁.timeline
    · obtain ⟨v, member, claims, pod, reports, timeline⟩ := one.promoted (later ▸ changed) nonzero
      have known := one.known (later ▸ changed)
      exact ⟨v, List.mem_append_left _ member, claims, pod, reports.trans (kept known).2.symm, timeline.trans later.symm⟩
    · have positive : l₁.timeline ≠ 0 := by
        have grows := one.grows
        omega
      obtain ⟨v, member, promoted⟩ := two.promoted later positive
      exact ⟨v, List.mem_append_right _ member, promoted⟩

theorem latchViews_latches (nonneg : 0 ≤ l.timeline) : Latches disagree parsed current committed views l
    (views.foldl (latchView disagree parsed current committed) l) := by
  induction views generalizing l with
  | nil => exact .refl
  | cons v rest ih =>
    have one := @latchView_latches v current committed disagree parsed l
    exact one.trans nonneg (ih (nonneg.trans one.grows))

/-- All ids that the poll has reported agree. -/
def Poll.Agrees (poll : Poll) : Prop :=
  ∀ v ∈ poll.views, ∀ w ∈ poll.views, v.observed = true → w.observed = true → v.systemID ≠ 0 → w.systemID ≠ 0 →
    v.systemID = w.systemID

/-- A latch that was recorded. -/
structure Status.Grounded (a : Status) : Prop where
  nonneg : 0 ≤ a.timeline
  unset : a.systemID = "" → a.timeline = 0

/-- How a stored status may follow another, with the poll that the later one was aggregated from. -/
structure Succeeds (source : Option Poll) (a b : Status) : Prop where
  once : a.systemID ≠ "" → b.systemID = a.systemID
  first : a.systemID = "" → b.systemID ≠ "" → ∃ poll, source = some poll ∧ poll.Agrees ∧
    ∃ v ∈ poll.views, Claims a.currentPrimary a.targetPrimary v ∧ b.systemID = toString v.systemID
  grows : a.timeline ≤ b.timeline
  promoted : a.timeline ≠ 0 → a.timeline < b.timeline → ∃ poll, source = some poll ∧
    ∃ v ∈ poll.views, Claims a.currentPrimary a.targetPrimary v ∧ v.pod = a.targetPrimary ∧
      parseLatchedID a.systemID = .ok v.systemID ∧ v.timeline = b.timeline

variable {owner : Owner} {poll : Poll} {before : Status}

theorem aggregateStatus_latch : (aggregateStatus owner poll before).status.systemID = (assess poll before).1.systemID ∧
    (aggregateStatus owner poll before).status.timeline = (assess poll before).1.timeline := by
  rw [aggregateStatus_assessed]
  split
  · exact ⟨reconcileFailover_published.2.2.1, reconcileFailover_published.2.1⟩
  · exact ⟨rfl, rfl⟩

theorem parseLatchedID_zero {text : String} (parsed : parseLatchedID text = .ok 0) : text = "" := by
  unfold parseLatchedID at parsed
  split_ifs at parsed with empty
  · exact empty
  · split at parsed
    · cases parsed
    · split_ifs at parsed with zero
      exact absurd (Except.ok.inj parsed) zero

theorem assess_latches (nonneg : 0 ≤ before.timeline) : ∃ parsed id,
    (parseLatchedID before.systemID = .ok id ∨ parsed = false ∧ id = 0 ∧ before.systemID ≠ "") ∧
    Latches (disagreement poll.views) parsed before.currentPrimary before.targetPrimary poll.views
      ⟨before.systemID, id, before.timeline⟩ (assess poll before).1 := by
  have latch : (assess poll before).1 = (latchIdentity poll.views before.currentPrimary before.targetPrimary
    before.systemID before.timeline).1 := rfl
  rw [latch, latchIdentity]
  cases parses : parseLatchedID before.systemID with
  | ok id => exact ⟨true, id, .inl rfl, latchViews_latches nonneg⟩
  | error e =>
    refine ⟨false, 0, .inr ⟨rfl, rfl, fun empty => ?_⟩, latchViews_latches nonneg⟩
    rw [empty] at parses
    cases parses

theorem aggregateStatus_succeeds (grounded : before.Grounded) :
    Succeeds (some poll) before (aggregateStatus owner poll before).status ∧
      (aggregateStatus owner poll before).status.Grounded := by
  obtain ⟨parsed, id, reads, latches⟩ := @assess_latches poll before grounded.nonneg
  obtain ⟨system, timeline⟩ := @aggregateStatus_latch owner poll before
  have known : before.systemID ≠ "" → (assess poll before).1.systemID = before.systemID ∧
      (assess poll before).1.expectedID = id := by
    intro set
    refine latches.identity.resolve_right fun ⟨parses, zero, _⟩ => ?_
    rcases reads with ok | ⟨unread, -⟩
    · exact set (parseLatchedID_zero (zero ▸ ok))
    · cases parses.symm.trans unread
  have unset : before.systemID = "" → id = 0 := by
    intro empty
    rcases reads with ok | ⟨-, -, set⟩
    · rw [empty] at ok
      exact (Except.ok.inj ok).symm
    · exact absurd empty set
  refine ⟨⟨fun set => system.trans (known set).1, fun empty set => ?_, timeline ▸ latches.grows, fun nonzero changed => ?_⟩,
    ⟨?_, fun empty => ?_⟩⟩
  · rcases latches.identity with ⟨same, -⟩ | ⟨-, -, agree, v, member, claims, latched, -⟩
    · rw [system, same] at set
      exact absurd empty set
    · exact ⟨poll, rfl, fun _ first _ second seen seen' set set' => reported_agree agree first second ⟨seen, set⟩ ⟨seen', set'⟩,
        v, member, claims, system.trans latched⟩
  · rw [timeline] at changed
    obtain ⟨v, member, claims, pod, reports, level⟩ := latches.promoted changed.ne' nonzero
    have set : before.systemID ≠ "" := fun empty => nonzero (grounded.unset empty)
    rw [(known set).2] at reports
    rcases reads with ok | ⟨-, zero, -⟩
    · exact ⟨poll, rfl, v, member, claims, pod, reports ▸ ok, level.trans timeline.symm⟩
    · exact absurd (reports.trans zero) claims.reports
  · exact timeline ▸ grounded.nonneg.trans latches.grows
  · rw [system] at empty
    rw [timeline]
    rcases latches.identity with ⟨same, expected⟩ | ⟨-, -, -, v, -, -, latched, -⟩
    · have before := same.symm.trans empty
      by_contra moved
      refine latches.known (fun still => moved (still.trans (grounded.unset before))) (expected.trans (unset before))
    · exact absurd (latched.symm.trans empty) Nat.repr_ne_empty

/-! ## What is stored -/

/-- The two have the same latch, and name the same pods. -/
structure Status.SameLatch (a b : Status) : Prop where
  systemID : a.systemID = b.systemID
  timeline : a.timeline = b.timeline
  current : a.currentPrimary = b.currentPrimary
  committed : a.targetPrimary = b.targetPrimary

theorem Status.SameLatch.trans {a b c : Status} (first : a.SameLatch b) (second : b.SameLatch c) : a.SameLatch c :=
  ⟨first.systemID.trans second.systemID, first.timeline.trans second.timeline, first.current.trans second.current,
    first.committed.trans second.committed⟩

theorem Status.Grounded.same {a b : Status} (grounded : a.Grounded) (system : a.systemID = b.systemID)
    (timeline : a.timeline = b.timeline) : b.Grounded :=
  ⟨timeline ▸ grounded.nonneg, fun empty => timeline ▸ grounded.unset (system.trans empty)⟩

theorem Succeeds.same {source : Option Poll} {a b : Status} (system : a.systemID = b.systemID)
    (timeline : a.timeline = b.timeline) : Succeeds source a b where
  once _ := system.symm
  first empty set := absurd (system.symm.trans empty) set
  grows := timeline.le
  promoted _ changed := absurd timeline changed.ne

theorem Succeeds.of_same {source : Option Poll} {a a' b : Status} (succeeds : Succeeds source a b)
    (same : a'.SameLatch a) : Succeeds source a' b := by
  obtain ⟨system, timeline, current, committed⟩ := same
  obtain ⟨once, first, grows, promoted⟩ := succeeds
  rw [← system, ← current, ← committed] at first
  rw [← timeline, ← system, ← current, ← committed] at promoted
  rw [← system] at once
  rw [← timeline] at grows
  exact ⟨once, first, grows, promoted⟩

/-- The stored statuses, each of them following the one before. -/
structure Chained (store : History Status) (source : Nat → Option Poll) : Prop where
  grounded : ∀ i a, store.entry i = some a → a.Grounded
  gapless : ∀ i b, store.entry (i + 1) = some b → ∃ a, store.entry i = some a
  follows : ∀ i a b, store.entry i = some a → store.entry (i + 1) = some b → Succeeds (source (i + 1)) a b

variable {store : History Status} {source source' : Nat → Option Poll} {a b : Status}

theorem Chained.push (chained : Chained store source) (latest : store.current = some a)
    (succeeds : Succeeds (source' store.size) a b) (grounded : b.Grounded)
    (same : ∀ i < store.size, source' i = source i) : Chained (store.push (some b)) source' where
  grounded i c found := by
    rcases History.entry_push_cases found with old | ⟨-, new⟩
    · exact chained.grounded i c old
    · exact Option.some.inj new ▸ grounded
  gapless i c found := by
    rcases History.entry_push_cases found with old | ⟨last, -⟩
    · obtain ⟨d, before⟩ := chained.gapless i c old
      exact ⟨d, History.entry_push before⟩
    · have index : store.size - 1 = i := by omega
      exact ⟨a, History.entry_push (index ▸ latest)⟩
  follows i c d first second := by
    rcases History.entry_push_cases second with old | ⟨last, new⟩
    · have inside := History.lt_of_entry old
      rw [History.entry_push_of_lt (by omega)] at first
      rw [same (i + 1) inside]
      exact chained.follows i c d first old
    · have index : store.size - 1 = i := by omega
      rw [History.entry_push_of_lt (by omega), ← index] at first
      cases Option.some.inj (latest.symm.trans first)
      cases new
      rw [last]
      exact succeeds

theorem Chained.remove (chained : Chained store source) : Chained (store.push none) source := by
  have old : ∀ {i c}, (store.push none).entry i = some c → store.entry i = some c := by
    intro i c found
    rcases History.entry_push_cases found with old | ⟨-, absent⟩
    · exact old
    · cases absent
  refine ⟨fun i c found => chained.grounded i c (old found), fun i c found => ?_,
    fun i c d first second => chained.follows i c d (old first) (old second)⟩
  obtain ⟨d, before⟩ := chained.gapless i c (old found)
  exact ⟨d, History.entry_push before⟩

theorem Chained.update {copy : Copy Status} {reply : Reply} (chained : Chained store source)
    (found : store.entry copy.version = some a) (succeeds : Succeeds (source' store.size) a copy.obj)
    (grounded : copy.obj.Grounded) (same : ∀ i < store.size, source' i = source i)
    (refused : (update store copy reply).1 = store → source' = source) :
    Chained (update store copy reply).1 source' := by
  unfold Failover.update at refused ⊢
  split_ifs at refused ⊢ with failed gone outdated
  · exact refused rfl ▸ chained
  · exact refused rfl ▸ chained
  · exact refused rfl ▸ chained
  all_goals
    have latest : store.Genuine ⟨copy.version, a⟩ := found
    exact chained.push (latest.current (by simpa using outdated)) succeeds grounded same

theorem update_eq_of_size {copy : Copy Status} {reply : Reply}
    (refused : (update store copy reply).1.size = store.size) : (update store copy reply).1 = store := by
  unfold update at refused ⊢
  split_ifs at refused ⊢
  · rfl
  · rfl
  · rfl
  all_goals
    rw [History.size_push] at refused
    omega

theorem update_updated_entry {copy stored : Copy Status} {reply : Reply}
    (updated : (update store copy reply).2 = .updated stored) :
    (update store copy reply).1.entry stored.version = some stored.obj := by
  unfold update at updated ⊢
  split_ifs at updated ⊢
  cases updated
  exact History.genuine_push

/-! ## The runs -/

/-- The copy has the latch of the version it was read at. -/
def Reads (store : History Status) (copy : Copy Status) : Prop :=
  ∃ a, store.entry copy.version = some a ∧ a.SameLatch copy.obj

/-- The copy is what the reconcile has aggregated over the version it was read at. -/
def Writes (store : History Status) (copy : Copy Status) (tail : Option Tail) : Prop :=
  ∃ a t, store.entry copy.version = some a ∧ tail = some t ∧ a.SameLatch t.before ∧ copy.obj = t.result.status

theorem verified_latch {status after : Status} {generation : Int} (clears : verified status generation = some after) :
    status.SameLatch after := by
  unfold verified at clears
  split at clears
  · cases clears
  · split at clears
    · cases clears
    · cases clears
      exact ⟨rfl, rfl, rfl, rfl⟩

namespace Watch

structure Latched (s : Watch) : Prop where
  chained : Chained s.world.store s.source
  reads : ∀ w copy, s.world.pass w = .read copy → Reads s.world.store copy
  writes : ∀ w copy, s.world.pass w = .write copy → Writes s.world.store copy (s.tail w)

namespace Latched

variable {s : Watch} {w : Nat} {pass : Pass} {tail : Nat → Option Tail} {copy : Copy Status}

section

variable (latched : s.Latched)
include latched

theorem stored (chained : Chained store source)
    (grows : ∀ i a, s.world.store.entry i = some a → store.entry i = some a) :
    Latched { s with world := { s.world with store }, source } where
  chained := chained
  reads w copy held :=
    let ⟨a, found, same⟩ := latched.reads w copy held
    ⟨a, grows _ _ found, same⟩
  writes w copy held :=
    let ⟨a, t, found, aggregated⟩ := latched.writes w copy held
    ⟨a, t, grows _ _ found, aggregated⟩

theorem passed (others : ∀ v, v ≠ w → tail v = s.tail v)
    (reads : ∀ copy, pass = .read copy → Reads s.world.store copy)
    (writes : ∀ copy, pass = .write copy → Writes s.world.store copy (tail w)) :
    Latched { s with world := s.world.setPass w pass, tail } where
  chained := latched.chained
  reads v copy held := by
    rcases World.setPass_cases held with ⟨-, now⟩ | ⟨-, old⟩
    · exact reads copy now
    · exact latched.reads v copy old
  writes v copy held := by
    rcases World.setPass_cases held with ⟨rfl, now⟩ | ⟨other, old⟩
    · exact writes copy now
    · have held := latched.writes v copy old
      rw [← others v other] at held
      exact held

theorem idle (others : ∀ v, v ≠ w → tail v = s.tail v) :
    Latched { s with world := s.world.setPass w .idle, tail } :=
  latched.passed others (by simp) (by simp)

theorem called (calls : List Call) : Latched { s with world := { s.world with calls } } :=
  ⟨latched.chained, latched.reads, latched.writes⟩

theorem written {reply : Reply} (writes : s.world.pass w = .write copy) :
    Latched { s with
      world := { s.world with store := (update s.world.store copy reply).1 }
      source := s.nextSource (.write w reply) } := by
  obtain ⟨a, t, found, tail, same, result⟩ := latched.writes w copy writes
  have grounded := latched.chained.grounded _ a found
  obtain ⟨succeeds, settled⟩ : Succeeds (some t.poll) t.before copy.obj ∧ copy.obj.Grounded := by
    rw [result]
    exact aggregateStatus_succeeds (grounded.same same.systemID same.timeline)
  refine latched.stored ?_ fun _ _ => update_entry
  simp only [nextSource, writes]
  split_ifs with refused
  · rw [update_eq_of_size refused]
    exact latched.chained
  · refine latched.chained.update found ?_ settled (fun i inside => Function.update_of_ne inside.ne _ _) fun kept => ?_
    · rw [Function.update_self, tail]
      exact succeeds.of_same same
    · exact absurd (congrArg History.size kept) refused

theorem rewritten (reads : Reads s.world.store copy) (status : Status) (reply : Reply)
    (system : copy.obj.systemID = status.systemID) (timeline : copy.obj.timeline = status.timeline) :
    Latched { s with world := { s.world with store := (update s.world.store { copy with obj := status } reply).1 } } := by
  obtain ⟨a, found, same⟩ := reads
  have system' := same.systemID.trans system
  have timeline' := same.timeline.trans timeline
  exact latched.stored (latched.chained.update found (.same system' timeline')
    ((latched.chained.grounded _ a found).same system' timeline') (fun _ _ => rfl) fun _ => rfl) fun _ _ => update_entry

end

end Latched

variable {s t : Watch}

theorem update_tail_ne {tail : Nat → Option Tail} {w : Nat} {next : Option Tail} (v : Nat) (other : v ≠ w) :
    Function.update tail w next v = tail v :=
  Function.update_of_ne other next tail

theorem Latched.next {a : Action} (latched : s.Latched) (taken : s.step a = some t) : t.Latched := by
  cases a with
  | prune w pod =>
    simp only [step] at taken
    split at taken
    · cases taken
    · split_ifs at taken
      cases taken
      exact ⟨latched.chained, latched.reads, latched.writes⟩
  | pass c =>
    obtain ⟨world, stepped, rfl⟩ := Option.map_eq_some_iff.mp taken
    cases c with
    | read w i =>
      simp only [Failover.step] at stepped
      split at stepped
      · rename_i copy _ found
        cases stepped
        refine latched.passed update_tail_ne (fun c same => ?_) (by simp)
        cases Pass.read.inj same
        exact ⟨copy.obj, History.read_genuine found, ⟨rfl, rfl, rfl, rfl⟩⟩
      · cases stepped
    | degrade w generation message reply =>
      simp only [Failover.step] at stepped
      split at stepped
      · rename_i copy reads
        cases stepped
        exact (latched.rewritten (latched.reads w copy reads) (degraded copy.obj generation message) reply rfl rfl).idle
          update_tail_ne
      · cases stepped
    | clear w generation reply =>
      simp only [Failover.step] at stepped
      split at stepped
      · rename_i copy reads
        split at stepped
        · cases stepped
        · rename_i status clears
          cases stepped
          obtain ⟨system, timeline, -, -⟩ := verified_latch clears
          have held := latched.reads w copy reads
          have later := latched.rewritten held status reply system timeline
          refine later.passed (fun _ _ => rfl) (fun c same => ?_) fun c same => ?_
          · split at same
            · rename_i stored outcome
              cases Pass.read.inj same
              exact ⟨_, update_updated_entry outcome, ⟨rfl, rfl, rfl, rfl⟩⟩
            · cases Pass.read.inj same
              obtain ⟨a, found, agrees⟩ := held
              exact ⟨a, update_entry found, agrees.trans (verified_latch clears)⟩
            · cases same
          · split at same <;> cases same
      · cases stepped
    | mirror w phase primary conditions reply =>
      simp only [Failover.step] at stepped
      split at stepped
      · rename_i copy reads
        cases stepped
        exact (latched.rewritten (latched.reads w copy reads) { copy.obj with phase, currentPrimary := primary, conditions }
          reply rfl rfl).idle update_tail_ne
      · cases stepped
    | aggregate w owner poll called =>
      simp only [Failover.step] at stepped
      split at stepped
      · rename_i copy reads
        cases stepped
        have tails : s.nextTail (.aggregate w owner poll called) = Function.update s.tail w (some ⟨owner, poll, copy.obj,
            decide ((aggregateStatus owner poll copy.obj).status = copy.obj)⟩) := by
          simp only [nextTail, reads]
        rw [tails]
        obtain ⟨a, found, agrees⟩ := latched.reads w copy reads
        refine (latched.called _).passed update_tail_ne (fun c same => ?_) fun c same => ?_
        · split at same <;> cases same
        · split at same
          · cases same
          · cases Pass.write.inj same
            rw [Function.update_self]
            exact ⟨a, _, found, rfl, agrees, rfl⟩
      · cases stepped
    | write w reply =>
      simp only [Failover.step] at stepped
      split at stepped
      · rename_i copy writes
        cases stepped
        have tails : s.nextTail (.write w reply) = Function.update s.tail w (if (update s.world.store copy reply).2 = .error
            then none else (s.tail w).map ({ · with stored := true })) := by
          simp only [nextTail, writes]
        rw [tails]
        exact (latched.written writes).idle update_tail_ne
      · cases stepped
    | stop w =>
      cases stepped
      exact latched.idle update_tail_ne
    | edit =>
      obtain ⟨status, latest, rfl⟩ := Option.map_eq_some_iff.mp stepped
      have grounded := latched.chained.grounded _ status latest
      exact latched.stored (latched.chained.push latest (.same rfl rfl) grounded fun _ _ => rfl) fun _ _ => History.entry_push
    | delete =>
      obtain ⟨status, latest, rfl⟩ := Option.map_eq_some_iff.mp stepped
      exact latched.stored latched.chained.remove fun _ _ => History.entry_push

theorem Reached.latched {meets : Watch → Action → Prop} (reached : Reached meets s) : s.Latched := by
  induction reached with
  | start initial =>
    subst initial
    have only : ∀ i a, (History.mk [some ({} : Status)]).entry i = some a → i = 0 ∧ a = {} := by
      intro i a found
      have first : i = 0 := by
        have := History.lt_of_entry found
        simpa [History.size] using this
      subst first
      exact ⟨rfl, (Option.some.inj found).symm⟩
    refine ⟨⟨fun i a found => ?_, fun i b found => ?_, fun i a b _ found => ?_⟩, by simp, by simp⟩
    · rw [(only i a found).2]
      exact ⟨le_refl _, fun _ => rfl⟩
    · cases (only _ b found).1
    · cases (only _ b found).1
  | next _ stepped ih =>
    obtain ⟨a, -, taken⟩ := stepped
    exact ih.next taken

end Watch

theorem Chained.lasting (chained : Chained store source) {i j : Nat} (order : i ≤ j) (first : store.entry i = some a)
    (second : store.entry j = some b) : (a.systemID ≠ "" → b.systemID = a.systemID) ∧ a.timeline ≤ b.timeline := by
  induction j, order using Nat.le_induction generalizing b with
  | base =>
    cases Option.some.inj (first.symm.trans second)
    exact ⟨fun _ => rfl, le_refl _⟩
  | succ j _ ih =>
    obtain ⟨c, before⟩ := chained.gapless j b second
    obtain ⟨kept, grows⟩ := ih before
    have succeeds := chained.follows j c b before second
    refine ⟨fun set => ?_, grows.trans succeeds.grows⟩
    exact (succeeds.once (by rw [kept set]; exact set)).trans (kept set)

/-- The latch in every run. A stored system id never changes, and the stored timeline never decreases. The id is first
stored from a poll in which all reported ids agree, and is that of an observed primary which the status stored before
names as current or committed. A timeline that is recorded grows only from a poll in which the committed target claims
to be primary, with the latched id, on exactly the new timeline. -/
theorem latch_written_once {meets : Watch → Action → Prop} {s : Watch} (reached : Watch.Reached meets s) :
    (∀ i j a b, i ≤ j → s.world.store.entry i = some a → s.world.store.entry j = some b →
      (a.systemID ≠ "" → b.systemID = a.systemID) ∧ a.timeline ≤ b.timeline) ∧
    ∀ i a b, s.world.store.entry i = some a → s.world.store.entry (i + 1) = some b →
      (a.systemID = "" → b.systemID ≠ "" → ∃ poll, s.source (i + 1) = some poll ∧ poll.Agrees ∧
        ∃ v ∈ poll.views, Claims a.currentPrimary a.targetPrimary v ∧ b.systemID = toString v.systemID) ∧
      (a.timeline ≠ 0 → a.timeline < b.timeline → ∃ poll, s.source (i + 1) = some poll ∧
        ∃ v ∈ poll.views, Claims a.currentPrimary a.targetPrimary v ∧ v.pod = a.targetPrimary ∧
          parseLatchedID a.systemID = .ok v.systemID ∧ v.timeline = b.timeline) := by
  have chained := reached.latched.chained
  refine ⟨fun i j a b order => chained.lasting order, fun i a b first second => ?_⟩
  have succeeds := chained.follows i a b first second
  exact ⟨succeeds.first, succeeds.promoted⟩

theorem twice_polled_latches : ((reconciles 0 3 (threePods "10.0.0.2" true) ++
      reconciles 1 3 (threePods "10.0.0.2" true)).foldlM Watch.step {}).any (fun s =>
    (s.world.store.entry 1).any (·.systemID == "") && (s.world.store.entry 2).any (·.systemID == "7")) = true := by
  decide +kernel

theorem latch_written_once_bootstrap : ∃ s, Watch.Reached (fun _ _ => True) s ∧ ∃ a b poll v,
    s.world.store.entry 1 = some a ∧ s.world.store.entry 2 = some b ∧ a.systemID = "" ∧ b.systemID = "7" ∧
    s.source 2 = some poll ∧ poll.Agrees ∧ v ∈ poll.views ∧ Claims a.currentPrimary a.targetPrimary v := by
  obtain ⟨s, ran, both⟩ := (Option.any_eq_true _ _).mp twice_polled_latches
  rw [Bool.and_eq_true, Option.any_eq_true, Option.any_eq_true] at both
  obtain ⟨⟨a, first, empty⟩, b, second, set⟩ := both
  rw [beq_iff_eq] at empty set
  have reached : Watch.Reached (fun _ _ => True) s := Watch.Reached.run (.start rfl) (fun _ _ _ => trivial) ran
  obtain ⟨poll, source, agrees, v, member, claims, -⟩ :=
    ((latch_written_once reached).2 1 a b first second).1 empty (by rw [set]; decide)
  exact ⟨s, reached, a, b, poll, v, first, second, empty, set, source, agrees, member, claims⟩

end PgShard.Failover
