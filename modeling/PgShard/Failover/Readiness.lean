import PgShard.Failover.Aggregate

/-! What a derived phase of Ready says about the instances. -/

namespace PgShard.Failover

variable {instances : List InstanceState} {replicas ord : Int} {had : Bool} {namePrefix : String} {t : Tally}
  {s : InstanceState}

/-- The instance is ready in a role that its agent has confirmed. -/
def InstanceState.confirmed (s : InstanceState) : Bool :=
  s.ready && (s.role == .primary || s.role == .standby)

def InstanceState.ordinal (namePrefix : String) (s : InstanceState) : Option Int :=
  ordinalOf s.pod.toList namePrefix.toList

theorem ordinalOf_some {podName start : List Char} (found : ordinalOf podName start = some ord) :
    0 ≤ ord ∧ podName = start ++ (toString ord).toList := by
  simp only [ordinalOf] at found
  split at found
  · cases found
  · rename_i named
    rw [Bool.not_eq_true', Bool.not_eq_false, List.isPrefixOf_iff_prefix] at named
    obtain ⟨suffix, rfl⟩ := named
    rw [List.drop_left] at found
    split at found
    · cases found
    · split at found
      · cases found
      · rename_i canonical
        cases found
        simp only [Bool.or_eq_true, decide_eq_true_eq, bne_iff_ne, not_or, not_lt, not_not] at canonical
        exact ⟨canonical.1, by rw [canonical.2]⟩

theorem InstanceState.pod_eq_of_ordinal {s' : InstanceState} (first : s.ordinal namePrefix = some ord)
    (second : s'.ordinal namePrefix = some ord) : s.pod = s'.pod :=
  String.ext ((ordinalOf_some first).2.trans (ordinalOf_some second).2.symm)

/-! ## The ordinals counted -/

def InstanceState.counts (replicas : Int) (namePrefix : String) (s : InstanceState) : Option Int :=
  if s.confirmed then (s.ordinal namePrefix).filter (· < replicas) else none

theorem InstanceState.counts_some : s.counts replicas namePrefix = some ord ↔
    s.confirmed = true ∧ s.ordinal namePrefix = some ord ∧ ord < replicas := by
  unfold InstanceState.counts
  split_ifs with confirmed
  · simp [confirmed, Option.filter_eq_some_iff]
  · simp [confirmed]

theorem tallyInstance_desired : (tallyInstance replicas namePrefix t s).desiredReady =
    (s.counts replicas namePrefix).elim t.desiredReady t.desiredReady.insert := by
  have same : s.ordinal namePrefix = ordinalOf s.pod.toList namePrefix.toList := rfl
  unfold tallyInstance InstanceState.counts InstanceState.confirmed
  rw [← same]
  cases s.ready && (s.role == .primary || s.role == .standby) <;> cases s.role == .primary <;>
    cases s.ordinal namePrefix with
    | none => rfl
    | some ord => by_cases below : ord < replicas <;> simp [below, Option.filter]

theorem tallyInstances_desired (distinct : t.desiredReady.Nodup) :
    (instances.foldl (tallyInstance replicas namePrefix) t).desiredReady.Nodup ∧
    ∀ ord, ord ∈ (instances.foldl (tallyInstance replicas namePrefix) t).desiredReady ↔
      ord ∈ t.desiredReady ∨ ∃ s ∈ instances, s.counts replicas namePrefix = some ord := by
  induction instances generalizing t with
  | nil => simpa using distinct
  | cons s rest ih =>
    have step : (tallyInstance replicas namePrefix t s).desiredReady.Nodup ∧ ∀ ord,
        ord ∈ (tallyInstance replicas namePrefix t s).desiredReady ↔
          ord ∈ t.desiredReady ∨ s.counts replicas namePrefix = some ord := by
      rw [tallyInstance_desired]
      cases s.counts replicas namePrefix with
      | none => exact ⟨distinct, by simp⟩
      | some o => exact ⟨distinct.insert, fun ord => by simp [List.mem_insert_iff, or_comm, eq_comm]⟩
    obtain ⟨nodup, members⟩ := ih step.1
    refine ⟨nodup, fun ord => (members ord).trans ?_⟩
    rw [step.2 ord, List.exists_mem_cons_iff, or_assoc]

/-! ## Ready -/

/-- Every desired ordinal has a ready instance in a confirmed role. -/
def Covered (instances : List InstanceState) (replicas : Int) (namePrefix : String) : Prop :=
  ∀ ord, 0 ≤ ord → ord < replicas → ∃ s ∈ instances, s.confirmed = true ∧ s.ordinal namePrefix = some ord

theorem desired_length_iff (positive : 1 ≤ replicas) :
    ((instances.foldl (tallyInstance replicas namePrefix) {}).desiredReady.length : Int) = replicas ↔
      Covered instances replicas namePrefix := by
  obtain ⟨distinct, members⟩ :=
    @tallyInstances_desired instances replicas namePrefix {} List.nodup_nil
  generalize (instances.foldl (tallyInstance replicas namePrefix) {}).desiredReady = ords at distinct members ⊢
  replace members : ∀ ord, ord ∈ ords ↔ ∃ s ∈ instances, s.counts replicas namePrefix = some ord := fun ord =>
    (members ord).trans (or_iff_right List.not_mem_nil)
  have within : ords.toFinset ⊆ Finset.Ico 0 replicas := fun o member => by
    obtain ⟨s, -, counts⟩ := (members o).mp (List.mem_toFinset.mp member)
    obtain ⟨-, found, below⟩ := InstanceState.counts_some.mp counts
    exact Finset.mem_Ico.mpr ⟨(ordinalOf_some found).1, below⟩
  have covered : Covered instances replicas namePrefix ↔ Finset.Ico 0 replicas ⊆ ords.toFinset := by
    simp only [Finset.subset_iff, Finset.mem_Ico, List.mem_toFinset, members, InstanceState.counts_some]
    refine forall_congr' fun ord => ⟨fun all inside => ?_, fun all low high => ?_⟩
    · obtain ⟨s, member, confirmed, found⟩ := all inside.1 inside.2
      exact ⟨s, member, confirmed, found, inside.2⟩
    · obtain ⟨s, member, confirmed, found, -⟩ := all ⟨low, high⟩
      exact ⟨s, member, confirmed, found⟩
  have length := List.toFinset_card_of_nodup distinct
  have desired := Int.card_Ico 0 replicas
  rw [covered]
  constructor
  · exact fun same => (Finset.eq_of_subset_of_card_le within (by omega)).ge
  · intro all
    rw [within.antisymm all] at length
    omega

theorem deriveStatus_ready_iff (positive : 1 ≤ replicas) :
    (deriveStatus instances replicas had namePrefix).2 = .ready ↔
      Covered instances replicas namePrefix ∧ sole ((primariesOf instances).map (·.pod)) ≠ "" := by
  have primary := @deriveStatus_primary replicas namePrefix instances had
  rw [← primary, ← desired_length_iff positive]
  simp only [deriveStatus]
  split_ifs <;> simp_all

/-- If every desired ordinal is covered, an only primary is ready, or its pod is one of those desired. -/
def PrimaryDesired (instances : List InstanceState) (replicas : Int) (namePrefix : String) : Prop :=
  ∀ p, primariesOf instances = [p] → p.pod ≠ "" → Covered instances replicas namePrefix →
    p.ready = true ∨ ∃ ord < replicas, p.ordinal namePrefix = some ord

/-- A status is derived Ready only with a ready instance of every desired ordinal and one primary, which is the one
returned and is ready, exactly if the only primary of covered ordinals is no surplus pod that is not ready. -/
theorem ready_has_primary (distinct : (instances.map (·.pod)).Nodup) (positive : 1 ≤ replicas) :
    ((deriveStatus instances replicas had namePrefix).2 = .ready →
      (∃ p, primariesOf instances = [p] ∧ p.ready = true ∧
        (deriveStatus instances replicas had namePrefix).1 = p.pod) ∧
      ∀ ord, 0 ≤ ord → ord < replicas → ∃ s ∈ instances, s.confirmed = true ∧ s.ordinal namePrefix = some ord) ↔
    PrimaryDesired instances replicas namePrefix := by
  rw [deriveStatus_ready_iff positive, deriveStatus_primary]
  constructor
  · intro fit p only named covered
    obtain ⟨⟨q, only', ready, -⟩, -⟩ := fit ⟨covered, by rwa [only]⟩
    cases only.symm.trans only'
    exact .inl ready
  · rintro desired ⟨covered, published⟩
    refine ⟨?_, covered⟩
    match only : primariesOf instances with
    | [] | _ :: _ :: _ => exact absurd (by rw [only]; rfl) published
    | [p] =>
      refine ⟨p, rfl, ?_, rfl⟩
      rw [only] at published
      rcases desired p only published covered with fit | ⟨ord, below, own⟩
      · exact fit
      · -- the instance counted for the primary's ordinal is the primary itself
        have listed : p ∈ instances := List.mem_of_mem_filter (only ▸ List.mem_cons_self : p ∈ primariesOf instances)
        obtain ⟨s, member, confirmed, same⟩ := covered ord (ordinalOf_some own).1 below
        cases List.inj_on_of_nodup_map distinct member listed (InstanceState.pod_eq_of_ordinal same own)
        exact (Bool.and_eq_true_iff.mp confirmed).1

def readyPair : List InstanceState :=
  [{ pod := "pg-0", role := .primary, ready := true }, { pod := "pg-1", role := .standby, ready := true }]

theorem ready_has_primary_pair :
    (deriveStatus readyPair 2 false "pg-").2 = .ready ∧ ∃ p, primariesOf readyPair = [p] ∧ p.ready = true := by
  have ready : (deriveStatus readyPair 2 false "pg-").2 = .ready := by decide +kernel
  have desired : PrimaryDesired readyPair 2 "pg-" := by
    rintro _ ⟨⟩ - -
    exact .inl rfl
  obtain ⟨⟨p, primary, fit, -⟩, -⟩ := (ready_has_primary (by decide) (by decide)).mpr desired ready
  exact ⟨ready, p, primary, fit⟩

/-- The desired pod is a ready replica, and the primary is a surplus pod that is not ready. -/
theorem surplus_primary_unready :
    let pods : List InstanceState := [{ pod := "pg-0", role := .standby, ready := true },
      { pod := "pg-1", role := .primary, ready := false }]
    (pods.map (·.pod)).Nodup ∧ deriveStatus pods 1 true "pg-" = ("pg-1", .ready) := by
  decide +kernel

end PgShard.Failover
