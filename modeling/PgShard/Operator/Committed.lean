import PgShard.Operator.Orderly

/-! What a committed switch can rely on in an orderly run. -/

namespace PgShard.Operator

open Versioned

variable {w w' : World} {n m : String} {c : Choice} {r : Reshard}

/-! ## One object under one name -/

/-- All versions under one name are of one object, with one spec. -/
structure OneObject (w : World) : Prop where
  same : ∀ {n i j r r'}, (w.reshards n).entry i = some r → (w.reshards n).entry j = some r' →
    r.uid = r'.uid ∧ r.spec = r'.spec

theorem OneObject.storeReshard (one : OneObject w) {stored : Option Reshard}
    (again : ∀ r, stored = some r → ∃ i old, (w.reshards n).entry i = some old ∧ r.uid = old.uid ∧ r.spec = old.spec) :
    OneObject (w.storeReshard n stored) := by
  have before : ∀ {m i r}, ((w.storeReshard n stored).reshards m).entry i = some r →
      ∃ j old, (w.reshards m).entry j = some old ∧ r.uid = old.uid ∧ r.spec = old.spec := by
    intro m i r found
    rcases World.entry_storeReshard_cases found with old | ⟨rfl, -, new⟩
    · exact ⟨i, r, old, rfl, rfl⟩
    · exact again r new
  refine ⟨fun {m i j r r'} first second => ?_⟩
  obtain ⟨_, _, old, uid, spec⟩ := before first
  obtain ⟨_, _, old', uid', spec'⟩ := before second
  obtain ⟨sameUid, sameSpec⟩ := one.same old old'
  exact ⟨(uid.trans sameUid).trans uid'.symm, (spec.trans sameSpec).trans spec'.symm⟩

theorem OneObject.acted {p q : Pass} {after : World} (one : OneObject w) (acted : Acted w p after q) : OneObject after := by
  -- a stored reshard that the pass stores anew
  have rewrites : ∀ {old : Reshard} {stored : Option Reshard}, w.reshard p.name = some old →
      (∀ r, stored = some r → r.uid = old.uid ∧ r.spec = old.spec) → OneObject (w.storeReshard p.name stored) :=
    fun found same => one.storeReshard fun r new => ⟨_, _, found, same r new⟩
  cases acted with
  | moved _ _ stored | movedUnknown _ _ stored | pinned _ _ stored | pinnedUnknown _ _ stored =>
    exact rewrites stored (by rintro _ ⟨⟩; exact ⟨rfl, rfl⟩)
  | unpinned _ stored => exact rewrites stored nofun
  | _ => exact ⟨one.same⟩

theorem OneObject.happens (one : OneObject w) (happens : Happens w c w') (names : NewNames w w') : OneObject w' := by
  cases happens with
  | acted _ _ _ _ acted => exact ⟨(one.acted acted).same⟩
  | retagged _ stored retags =>
    refine ⟨(one.storeReshard fun r new => ⟨_, _, stored, ?_⟩).same⟩
    cases retags.retagged with
    | gone => cases new
    | kept => cases new; exact ⟨rfl, rfl⟩
  | @born name uid spec _ absent =>
    have unused : ∀ i, (w.reshards name).entry i = none :=
      names name absent (by simp [World.reshard, World.storeReshard])
    refine ⟨fun {m i j r r'} first second => ?_⟩
    rcases World.entry_storeReshard_cases first with old | ⟨rfl, -, new⟩ <;>
      rcases World.entry_storeReshard_cases second with old' | ⟨here, -, new'⟩
    · exact one.same old old'
    · subst here
      cases (unused i).symm.trans old
    · cases (unused j).symm.trans old'
    · cases new.symm.trans new'
      exact ⟨rfl, rfl⟩
  | _ => exact ⟨one.same⟩

theorem ReachedUnder.oneObject {allowed : World → Choice → Bool} (reached : ReachedUnder allowed w)
    (new : ∀ w c, allowed w c = true → nameNew w c = true) : OneObject w := by
  refine reached.invariant ⟨fun found => by cases found⟩ fun w c w' reached one fit taken => ?_
  have happens := step_happens reached.lawful taken
  exact one.happens happens (happens.newNames reached.lawful (new w c fit))

theorem orderly_nameNew (w : World) (c : Choice) (fit : orderly w c = true) : nameNew w c = true := by
  simp only [orderly, Bool.and_eq_true] at fit
  exact fit.1.1.1.1.2

theorem OneObject.sourced (one : OneObject w) {i : Nat} (found : (w.reshards n).entry i = some r) :
    Sourced n r.spec.sourceShard w :=
  fun _ _ other => congrArg ReshardSpec.sourceShard (one.same other found).2

theorem ReachedUnder.safe_source (reached : ReachedUnder orderly w) {i : Nat}
    (found : (w.reshards n).entry i = some r) : Safe n r.spec.sourceShard (w.scene n r.spec.sourceShard) :=
  reached.safe n _ (reached.reached.lawful.reshard found).2.1 ((reached.oneObject orderly_nameNew).sourced found)

/-! ## The fence -/

/-- A committed switch is behind a fence that has stood since before its barrier was
emitted. -/
theorem committed_behind_fence (reached : ReachedUnder orderly w) (stored : w.reshard n = some r)
    (committed : r.status.switchCommitted = true) :
    (⟨r.uid, r.status.cutoverAttempt⟩, r.status.cutoverFrozenLSN) ∈ (w.databases r.spec.sourceShard).journals ∧
      ∃ f, (w.databases r.spec.sourceShard).fence = some f ∧ f.since < r.status.cutoverFrozenLSN := by
  have fencing := (reached.safe_source stored).fencing
  obtain ⟨f, stands, since⟩ := fencing.frozen stored committed
  exact ⟨fencing.recorded stored (by omega), f, stands, since⟩

def targetCaughtUp (id : String) : List Reply :=
  .version 1 :: primarySeen ++ [.done, streamingAt id 1] ++ primarySeen

def splitAcknowledged (version : Nat) : List Choice :=
  begun "split" (cutoverPass version ++ targetCaughtUp "pgshard_split_r0_t0" ++ targetCaughtUp "pgshard_split_r0_t1" ++
    [.done])

def splitCommitted : List Choice :=
  splitToFrozen ++ splitAcknowledged 11 ++ [.advance "split" .done]

/-- A reconcile sees a replaced cluster: it drops the claim and un-fences the source,
and ends before it stores the failure. -/
def splitAbandoned : List Choice :=
  splitToFrozen ++ reconciled "split" ([.version 11, .cluster otherCluster, .version 1, .done, .done] ++ primarySeen ++
    [.done, .done] ++ primarySeen ++ [.done, .done])

set_option maxRecDepth 100000 in
theorem splitCommitted_ends : (runUnder orderly {} splitCommitted).any
    (fun w => (w.reshard "split").any (·.status.switchCommitted)) = true := by
  decide +kernel

theorem committed_behind_fence_split : ∃ w r f, ReachedUnder orderly w ∧ w.reshard "split" = some r ∧
    r.status.switchCommitted = true ∧ (w.databases r.spec.sourceShard).fence = some f ∧
    f.since < r.status.cutoverFrozenLSN := by
  obtain ⟨w, reached, holds⟩ := ReachedUnder.of_run splitCommitted_ends
  obtain ⟨r, stored, committed⟩ := exists_of_any holds
  obtain ⟨-, f, stands, since⟩ := committed_behind_fence reached stored committed
  exact ⟨w, r, f, reached, stored, committed, stands, since⟩

set_option maxRecDepth 100000 in
theorem splitAbandoned_ends : (run {} (splitAbandoned ++ splitAcknowledged 12 ++ [.advance "split" .done])).any
    (fun w => (w.reshard "split").any fun r => r.status.switchCommitted &&
      (w.databases r.spec.sourceShard).fence.isNone) = true := by
  decide +kernel

/-- The next reconcile sees the cluster as it was, and commits a switch whose source
is not fenced. -/
theorem abandoned_commits_unfenced : ∃ w r, Reached w ∧ w.reshard "split" = some r ∧
    r.status.switchCommitted = true ∧ (w.databases r.spec.sourceShard).fence = none := by
  obtain ⟨w, reached, holds⟩ := Reached.of_run splitAbandoned_ends
  obtain ⟨r, stored, holds⟩ := exists_of_any holds
  obtain ⟨committed, open_⟩ := Bool.and_eq_true_iff.mp holds
  exact ⟨w, r, reached, stored, committed, Option.isNone_iff_eq_none.mp open_⟩

/-! ## The claim -/

theorem commit_claimed {s : String} (reached : ReachedUnder orderly w) (fit : orderly w c = true)
    (taken : step w c = some w') (named : n ≠ "") (sourced : Sourced n s w) (committed : (w'.scene n s).committed) :
    (w.scene n s).committed ∨ ∃ x, w.shard s = some x ∧ x.claim = n := by
  have safe := reached.safe n s named sourced
  obtain ⟨step, -⟩ := orderly_scene reached.reached fit taken named sourced
  by_cases before : (w.scene n s).committed
  · exact .inl before
  · obtain ⟨p, h, status, running, -, -, stored, move, switched⟩ := (step.commits committed).resolve_left before
    refine .inr (safe.holding.commits safe.rooted running stored move switched ?_)
    exact Bool.eq_false_iff.mpr fun switched =>
      before ((safe.sound.committed (Scene.knows_of_stored stored)).mpr switched)

/-- The switches of one source that have ever committed are of one reshard. -/
def OneSwitch (w : World) : Prop :=
  ∀ {n m s}, n ≠ "" → m ≠ "" → Sourced n s w → Sourced m s w → (w.scene n s).committed → (w.scene m s).committed → n = m

theorem Safe.commit_alone {s : String} {x : Shard} (safe : Safe n s (w.scene n s)) (named : m ≠ "")
    (before : (w.scene n s).committed) (stored : w.shard s = some x) (claim : x.claim = m) : n = m := by
  obtain ⟨y, stored', state⟩ := safe.exclusive before
  cases stored.symm.trans stored'
  rcases state with own | ⟨free, -⟩
  · exact own.symm.trans claim
  · exact absurd (claim.symm.trans free) named

theorem ReachedUnder.oneSwitch (reached : ReachedUnder orderly w) : OneSwitch w := by
  induction reached with
  | start =>
    rintro n m s - - - - ⟨i, r, found, -⟩
    cases found
  | @next w w' _ before fit taken ih =>
    have reached : ReachedUnder orderly w := before
    intro n m s named named' sourced sourced' first second
    have grown := (step_happens reached.reached.lawful taken).extends
    replace sourced := sourced.before grown
    replace sourced' := sourced'.before grown
    rcases commit_claimed reached fit taken named sourced first with old | ⟨x, stored, claim⟩ <;>
      rcases commit_claimed reached fit taken named' sourced' second with old' | ⟨x', stored', claim'⟩
    · exact ih named named' sourced sourced' old old'
    · exact (reached.safe n s named sourced).commit_alone named' old stored' claim'
    · exact ((reached.safe m s named' sourced').commit_alone named old' stored claim).symm
    · cases stored.symm.trans stored'
      exact claim.symm.trans claim'

/-- A reshard commits only while its source's claim names it, and the versions of one
source that have ever committed are of one reshard. -/
theorem commit_exclusive (reached : ReachedUnder orderly w) :
    (∀ (c : Choice) (w' : World) (n : String) (r r' : Reshard), orderly w c = true → step w c = some w' → w.reshard n = some r →
      r.status.switchCommitted = false → w'.reshard n = some r' → r'.status.switchCommitted = true →
      ∃ x, w.shard r'.spec.sourceShard = some x ∧ x.claim = n) ∧
    ∀ (n m : String) (i j : Nat) (r r' : Reshard), (w.reshards n).entry i = some r → (w.reshards m).entry j = some r' →
      r.status.switchCommitted = true → r'.status.switchCommitted = true →
      r.spec.sourceShard = r'.spec.sourceShard → r.uid = r'.uid := by
  have lawful := reached.reached.lawful
  constructor
  · intro c w' n r r' fit taken stored open_ stored' committed
    have reached' : ReachedUnder orderly w' := .next reached fit taken
    have sourced := (reached'.oneObject orderly_nameNew).sourced stored'
    replace sourced := sourced.before (step_happens lawful taken).extends
    have named := (lawful.reshard stored).2.1
    refine (commit_claimed reached fit taken named sourced ⟨_, _, stored', committed⟩).resolve_left fun before => ?_
    have switched := ((reached.safe n _ named sourced).sound.committed (Scene.knows_of_stored stored)).mp before
    exact absurd switched (by simp [open_])
  · intro n m i j r r' found found' committed committed' source
    have sourced' := (reached.oneObject orderly_nameNew).sourced found'
    rw [← source] at sourced'
    have same := reached.oneSwitch (lawful.reshard found).2.1 (lawful.reshard found').2.1
      ((reached.oneObject orderly_nameNew).sourced found) sourced' ⟨i, r, found, committed⟩ ⟨j, r', found', committed'⟩
    subst same
    exact ((reached.oneObject orderly_nameNew).same found found').1

/-- The reshard as it is stored before and after the next write of its pass. -/
def World.writes (w : World) (n : String) (before after : Reshard → Bool) : Bool :=
  (w.reshard n).any before && (step w (.advance n .done)).any fun w' => (w'.reshard n).any after

theorem World.writes_step {before after : Reshard → Bool} (holds : w.writes n before after = true) :
    ∃ r w' r', w.reshard n = some r ∧ before r = true ∧ step w (.advance n .done) = some w' ∧
      w'.reshard n = some r' ∧ after r' = true := by
  obtain ⟨first, holds⟩ := Bool.and_eq_true_iff.mp holds
  obtain ⟨r, stored, first⟩ := exists_of_any first
  obtain ⟨w', taken, holds⟩ := exists_of_any holds
  obtain ⟨r', stored', second⟩ := exists_of_any holds
  exact ⟨r, w', r', stored, first, taken, stored', second⟩

set_option maxRecDepth 100000 in
theorem splitAcknowledged_ends : (runUnder orderly {} (splitToFrozen ++ splitAcknowledged 11)).any
    (fun w => orderly w (.advance "split" .done) &&
      w.writes "split" (!·.status.switchCommitted) (·.status.switchCommitted)) = true := by
  decide +kernel

theorem commit_exclusive_split : ∃ w w' r' x, ReachedUnder orderly w ∧ step w (.advance "split" .done) = some w' ∧
    w'.reshard "split" = some r' ∧ r'.status.switchCommitted = true ∧
    w.shard r'.spec.sourceShard = some x ∧ x.claim = "split" := by
  obtain ⟨w, reached, holds⟩ := ReachedUnder.of_run splitAcknowledged_ends
  obtain ⟨fit, holds⟩ := Bool.and_eq_true_iff.mp holds
  obtain ⟨r, w', r', stored, open_, taken, stored', committed⟩ := World.writes_step holds
  obtain ⟨x, source, claim⟩ :=
    (commit_exclusive reached).1 _ _ _ _ _ fit taken stored (by simpa using open_) stored' committed
  exact ⟨w, w', r', x, reached, taken, stored', committed, source, claim⟩

set_option maxRecDepth 100000 in
theorem splitReacknowledged_ends : (run {} (splitAbandoned ++ splitAcknowledged 12)).any
    (fun w => w.writes "split" (!·.status.switchCommitted) fun r => r.status.switchCommitted &&
      (w.shard r.spec.sourceShard).any fun x => x.claim != "split") = true := by
  decide +kernel

/-- The abandoned split commits while its source's claim does not name it. -/
theorem abandoned_commits_unclaimed : ∃ w r w' r' x, Reached w ∧ w.reshard "split" = some r ∧
    r.status.switchCommitted = false ∧ step w (.advance "split" .done) = some w' ∧ w'.reshard "split" = some r' ∧
    r'.status.switchCommitted = true ∧ w.shard r'.spec.sourceShard = some x ∧ x.claim ≠ "split" := by
  obtain ⟨w, reached, holds⟩ := Reached.of_run splitReacknowledged_ends
  obtain ⟨r, w', r', stored, open_, taken, stored', holds⟩ := World.writes_step holds
  obtain ⟨committed, holds⟩ := Bool.and_eq_true_iff.mp holds
  obtain ⟨x, source, unclaimed⟩ := exists_of_any holds
  exact ⟨w, r, w', r', x, reached, stored, by simpa using open_, taken, stored', committed, source, by simpa using unclaimed⟩

end PgShard.Operator
