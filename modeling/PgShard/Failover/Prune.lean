import PgShard.Failover.Epochs

/-! The reconciles of one object, watched: which poll stands behind a stored status, and which pods a scale-down
deletes. -/

namespace PgShard.Failover

open Versioned

/-- The pods that a scale-down asks to delete: confirmed ready replicas of a ready object, at ordinals that are not
desired any more. -/
def pruneExcessInstances (owner : Owner) (status : Status) (candidates : List String) : List String :=
  if status.phase ≠ .ready then []
  else candidates.filter fun pod =>
    match ordinalOf pod.toList (owner.name ++ "-").toList with
    | none => false
    | some ord => !decide (ord < owner.replicas)

/-- A reconcile that has aggregated a poll. It prunes when its status is stored, or was stored already. -/
structure Tail where
  owner : Owner
  poll : Poll
  before : Status
  stored : Bool

namespace Tail

variable (t : Tail)

def result : Aggregation :=
  aggregateStatus t.owner t.poll t.before

def pruned : List String :=
  pruneExcessInstances t.owner t.result.status t.result.readyReplicas

end Tail

structure Deletion where
  pod : String
  owner : Owner
  published : String
  persisted : Option Status

structure Watch where
  world : World := {}
  tail : Nat → Option Tail := fun _ => none
  /-- The poll from which a version was aggregated. -/
  source : Nat → Option Poll := fun _ => none
  deleted : List Deletion := []

inductive Action
  | pass (c : Choice)
  | prune (w : Nat) (pod : String)

namespace Watch

def nextTail (s : Watch) : Choice → Nat → Option Tail
  | .aggregate w owner poll _ =>
    match s.world.pass w with
    | .read copy =>
      let stored := decide ((aggregateStatus owner poll copy.obj).status = copy.obj)
      Function.update s.tail w (some { owner, poll, before := copy.obj, stored })
    | _ => s.tail
  | .write w reply =>
    match s.world.pass w with
    | .write copy =>
      -- an error of the write ends the reconcile before it prunes; a missing object does not
      let next := if (update s.world.store copy reply).2 = .error then none
        else (s.tail w).map ({ · with stored := true })
      Function.update s.tail w next
    | _ => s.tail
  | .read w _ => Function.update s.tail w none
  | .degrade w _ _ _ => Function.update s.tail w none
  | .mirror w _ _ _ _ => Function.update s.tail w none
  | .stop w => Function.update s.tail w none
  | .clear _ _ _ => s.tail
  | .edit => s.tail
  | .delete => s.tail

def nextSource (s : Watch) : Choice → Nat → Option Poll
  | .write w reply =>
    match s.world.pass w with
    | .write copy =>
      if (update s.world.store copy reply).1.size = s.world.store.size then s.source
      else Function.update s.source s.world.store.size ((s.tail w).map (·.poll))
    | _ => s.source
  | _ => s.source

def step (s : Watch) : Action → Option Watch
  | .pass c =>
    (Failover.step s.world c).map fun world => { s with world, tail := s.nextTail c, source := s.nextSource c }
  | .prune w pod =>
    match s.tail w with
    | none => none
    | some t =>
      if t.stored ∧ pod ∈ t.pruned then
        some { s with deleted := s.deleted ++ [⟨pod, t.owner, t.result.status.currentPrimary, s.world.store.current⟩] }
      else none

/-- The runs whose steps all meet a condition. -/
def Reached (meets : Watch → Action → Prop) : Watch → Prop :=
  Runs.Reachable (· = {}) fun s t => ∃ a, meets s a ∧ s.step a = some t

end Watch

/-! ## The target of a ready object -/

variable {owner : Owner} {poll : Poll} {before status : Status} {views : List InstanceView} {v : InstanceView}
  {pod : String}

theorem evaluateFailover_readyPrimary {committed : String} (member : v ∈ views) (primary : v.isPrimary = true)
    (ready : v.ready = true) : (evaluateFailover views committed).warranted = false := by
  have has : (summarizeInstances views committed).hasReadyPrimary = true := by
    rw [summarizeInstances, summarizeViews_eq.1, Bool.false_or, List.any_eq_true]
    exact ⟨v, member, by simp [primary, ready]⟩
  simp [evaluateFailover, has]

theorem reconcileFailover_ready (ready : (reconcileFailover status views).1.phase = .ready) :
    status.phase = .ready ∧ (status.currentPrimary ≠ "" → (reconcileFailover status views).1.targetPrimary = "" ∨
      (evaluateFailover views status.targetPrimary).warranted = true ∧
        (reconcileFailover status views).1.targetPrimary = status.targetPrimary) := by
  simp only [reconcileFailover] at ready ⊢
  split_ifs at ready ⊢ with rests ends elects
  · exact ⟨ready, fun _ => .inl rfl⟩
  · refine ⟨ready, fun published => ?_⟩
    cases warranted : (evaluateFailover views status.targetPrimary).warranted with
    | true => exact .inr ⟨rfl, rfl⟩
    | false =>
      left
      simpa [warranted, published] using ends

theorem deriveStatus_ready {instances : List InstanceState} {replicas : Int} {had : Bool} {namePrefix : String}
    (ready : (deriveStatus instances replicas had namePrefix).2 = .ready) :
    (deriveStatus instances replicas had namePrefix).1 ≠ "" := by
  unfold deriveStatus at ready ⊢
  dsimp only at ready ⊢
  split_ifs at ready ⊢ with several desired
  rw [Bool.and_eq_true, bne_iff_ne] at desired
  exact desired.2

theorem derived_kept {inputs : IdentityInputs} (parsed : inputs.malformed = false) (member : v ∈ poll.views)
    (named : sole ((primariesOf (believed poll (assessIdentity poll.views inputs))).map (·.pod)) = v.pod) :
    v.isPrimary = true ∧ v ∈ (assessIdentity poll.views inputs).kept := by
  have single := (sole_eq (Poll.views_named member)).mp named
  obtain ⟨s, only, pod⟩ := List.map_eq_singleton_iff.mp single
  obtain ⟨inside, primary⟩ := List.mem_filter.mp (only ▸ List.mem_singleton_self s)
  obtain ⟨p, listed, rfl⟩ := List.mem_map.mp inside
  rw [Pod.believed_pod] at pod
  rw [Pod.believed_primary, Bool.and_eq_true, Bool.not_eq_true'] at primary
  have viewed := Poll.mem_views.mpr ⟨p, listed, rfl⟩
  have same : p.view = v := Poll.views_inj viewed member (Pod.view_pod.trans pod)
  rw [same] at primary
  refine ⟨primary.1, ?_⟩
  by_cases latched : inputs.systemID = 0
  · rwa [assessIdentity_unlatched parsed latched]
  · rw [assessIdentity_kept parsed latched, List.mem_filterMap]
    have believed : inputs.strips v = false := by
      by_contra strips
      have rogue := (assessIdentity_rogue parsed latched).mpr ⟨v, member, by simpa using strips, pod.symm⟩
      rw [rogue] at primary
      cases primary.2
    simp only [IdentityInputs.strips, Bool.or_eq_false_iff] at believed
    exact ⟨v, member, by simp [IdentityInputs.keeps, believed.1.1, believed.2]⟩

theorem assessIdentity_unsettled {inputs : IdentityInputs}
    (unsettled : (!inputs.malformed && !(assessIdentity views inputs).conflict) = false) :
    (assessIdentity views inputs).suppressPrimary = true := by
  cases malformed : inputs.malformed with
  | true => simp [assessIdentity, malformed]
  | false =>
    by_cases latched : inputs.systemID = 0
    · cases conflict : disagreement views with
      | true => simp [assessIdentity, malformed, latched, conflict]
      | false => simp [assessIdentity, malformed, latched, conflict] at unsettled
    · have calm := (@assessViews_eq inputs views { anyStartedUnobserved := views.any fun v => !v.observed && v.host != "" }).2.2.2.2
      simp [assessIdentity, malformed, latched, calm] at unsettled

/-- The primary that the poll publishes has reported to be ready. -/
def PublishesReady (owner : Owner) (poll : Poll) (before : Status) : Prop :=
  ∃ v ∈ poll.views, v.pod = (aggregateStatus owner poll before).status.currentPrimary ∧ v.ready = true

theorem assessedStatus_phase : (assessedStatus owner poll before).phase =
    if (assessIdentity poll.views (identityOf poll before)).suppressPrimary ||
      (assessIdentity poll.views (identityOf poll before)).blocked then .degraded
    else (deriveStatus (believed poll (assessIdentity poll.views (identityOf poll before))) owner.replicas
      (before.currentPrimary != "") (owner.name ++ "-")).2 :=
  rfl

theorem assessedStatus_ready (ready : (assessedStatus owner poll before).phase = .ready) :
    (assessIdentity poll.views (identityOf poll before)).suppressPrimary = false ∧
      (assessedStatus owner poll before).currentPrimary ≠ "" := by
  rw [assessedStatus_phase] at ready
  split at ready
  · cases ready
  rename_i calm
  simp only [Bool.or_eq_true, not_or, Bool.not_eq_true] at calm
  rw [assessedStatus_currentPrimary, calm.1, if_neg Bool.false_ne_true]
  exact ⟨rfl, deriveStatus_primary ▸ deriveStatus_ready ready⟩

theorem aggregateStatus_ready (ready : (aggregateStatus owner poll before).status.phase = .ready)
    (settled : before.targetPrimary = "" ∨ PublishesReady owner poll before) :
    (aggregateStatus owner poll before).status.targetPrimary = "" := by
  unfold PublishesReady at settled
  rw [aggregateStatus_assessed] at ready settled ⊢
  cases runs : !(identityOf poll before).malformed && !(assessIdentity poll.views (identityOf poll before)).conflict with
  | false =>
    rw [runs, if_neg Bool.false_ne_true, assessedStatus_phase, assessIdentity_unsettled runs] at ready
    cases ready
  | true =>
    rw [runs, if_pos rfl] at ready settled
    rw [if_pos rfl]
    have parsed : (identityOf poll before).malformed = false := by
      simp only [Bool.and_eq_true, Bool.not_eq_true'] at runs
      exact runs.1
    obtain ⟨phase, handshake⟩ := reconcileFailover_ready ready
    obtain ⟨undisputed, derived⟩ := assessedStatus_ready phase
    rcases handshake derived with ended | ⟨warranted, kept⟩
    · exact ended
    rcases settled with free | ⟨v, member, pod, healthy⟩
    · exact kept.trans free
    · rw [reconcileFailover_published.1, assessedStatus_currentPrimary, undisputed, if_neg Bool.false_ne_true] at pod
      obtain ⟨primary, seen⟩ := derived_kept parsed member pod.symm
      rw [evaluateFailover_readyPrimary seen primary healthy] at warranted
      cases warranted

/-! ## What a scale-down deletes -/

theorem mem_readyReplicas (member : pod ∈ (aggregateStatus owner poll before).readyReplicas) :
    pod ≠ "" ∧ pod ≠ (aggregateStatus owner poll before).status.currentPrimary := by
  simp only [aggregateStatus] at member ⊢
  obtain ⟨s, kept, rfl⟩ := List.mem_map.mp member
  obtain ⟨inside, conditions⟩ := List.mem_filter.mp kept
  rw [Bool.and_eq_true, bne_iff_ne] at conditions
  obtain ⟨p, listed, rfl⟩ := List.mem_map.mp inside
  refine ⟨?_, conditions.2⟩
  rw [Pod.believed_pod]
  exact poll.named p (List.mem_of_mem_filter listed)

theorem mem_pruneExcessInstances {candidates : List String} (member : pod ∈ pruneExcessInstances owner status candidates) :
    status.phase = .ready ∧ pod ∈ candidates ∧
      ∃ ord, ordinalOf pod.toList (owner.name ++ "-").toList = some ord ∧ owner.replicas ≤ ord := by
  unfold pruneExcessInstances at member
  split_ifs at member with ready
  · cases member
  obtain ⟨listed, excess⟩ := List.mem_filter.mp member
  refine ⟨not_not.mp ready, listed, ?_⟩
  cases ordinal : ordinalOf pod.toList (owner.name ++ "-").toList with
  | none =>
    rw [ordinal] at excess
    cases excess
  | some ord =>
    rw [ordinal] at excess
    exact ⟨ord, rfl, by simpa using excess⟩

namespace Watch

variable {s t : Watch} {meets : Watch → Action → Prop}

theorem step_deleted {a : Action} (taken : s.step a = some t) (d : Deletion) (member : d ∈ t.deleted) : d ∈ s.deleted ∨
    ∃ w tail, a = .prune w d.pod ∧ s.tail w = some tail ∧ d.pod ∈ tail.pruned ∧
      d = ⟨d.pod, tail.owner, tail.result.status.currentPrimary, s.world.store.current⟩ := by
  cases a with
  | pass c =>
    obtain ⟨world, -, rfl⟩ := Option.map_eq_some_iff.mp taken
    exact .inl member
  | prune w pod =>
    simp only [step] at taken
    split at taken
    · cases taken
    rename_i tail found
    split_ifs at taken with prunes
    cases taken
    rcases List.mem_append.mp member with old | new
    · exact .inl old
    · cases List.mem_singleton.mp new
      exact .inr ⟨w, tail, rfl, found, prunes.2, rfl⟩

/-- A scale-down runs on a status that is still the stored one; the poll has found no target in it, or publishes a
primary that is ready. -/
def PrunesSettled (s : Watch) : Action → Prop
  | .pass _ => True
  | .prune w _ => ∀ tail, s.tail w = some tail →
    (∀ status, s.world.store.current = some status → status = tail.result.status) ∧
      (tail.before.targetPrimary = "" ∨ PublishesReady tail.owner tail.poll tail.before)

end Watch

theorem Watch.Reached.run {meets : Watch → Action → Prop} {s t : Watch} {actions : List Action}
    (reached : Watch.Reached meets s) (met : ∀ a ∈ actions, ∀ s, meets s a)
    (ran : actions.foldlM Watch.step s = some t) : Watch.Reached meets t := by
  induction actions generalizing s with
  | nil =>
    cases ran
    exact reached
  | cons a rest ih =>
    obtain ⟨u, taken, ran⟩ := Option.bind_eq_some_iff.mp ran
    obtain ⟨here, later⟩ := List.forall_mem_cons.mp met
    exact ih (.next reached ⟨a, here s, taken⟩) later ran

/-- A scale-down never deletes the primary that its poll has published, nor a pod at a desired ordinal. In every run
whose scale-downs are settled it does not delete the stored target either. -/
theorem prune_spares_failover (s : Watch) :
    (∀ meets, Watch.Reached meets s → ∀ d ∈ s.deleted, d.pod ≠ d.published ∧
      ∃ ord, ordinalOf d.pod.toList (d.owner.name ++ "-").toList = some ord ∧ d.owner.replicas ≤ ord) ∧
    (Watch.Reached Watch.PrunesSettled s → ∀ d ∈ s.deleted, ∀ status, d.persisted = some status →
      d.pod ≠ status.targetPrimary) := by
  constructor
  · intro meets reached
    induction reached with
    | start initial => simp [initial]
    | next _ stepped ih =>
      obtain ⟨a, -, taken⟩ := stepped
      intro d member
      rcases Watch.step_deleted taken d member with old | ⟨w, tail, -, -, pruned, same⟩
      · exact ih d old
      · obtain ⟨-, candidate, excess⟩ := mem_pruneExcessInstances pruned
        rw [same]
        exact ⟨(mem_readyReplicas candidate).2, excess⟩
  · intro reached
    induction reached with
    | start initial => simp [initial]
    | next _ stepped ih =>
      obtain ⟨a, met, taken⟩ := stepped
      intro d member status persisted
      rcases Watch.step_deleted taken d member with old | ⟨w, tail, rfl, found, pruned, same⟩
      · exact ih d old status persisted
      · obtain ⟨ready, candidate, -⟩ := mem_pruneExcessInstances pruned
        obtain ⟨stored, settled⟩ := met tail found
        rw [same] at persisted
        rw [stored status persisted]
        have none : tail.result.status.targetPrimary = "" := aggregateStatus_ready ready settled
        rw [none]
        exact (mem_readyReplicas candidate).1

def threePods (address : String) (ready : Bool) : Poll where
  pods := [⟨"pg-0", "10.0.0.1", true, some (healthy .standby 40 7)⟩,
    ⟨"pg-1", address, true, some { ready, role := .primary, systemId := 7, timeline := 2 }⟩,
    ⟨"pg-2", "10.0.0.3", true, some (healthy .standby 60 7)⟩]
  named := by simp
  distinct := by simp

def reconciles (version : Nat) (replicas : Int) (poll : Poll) : List Action :=
  [.pass (.read 0 version), .pass (.aggregate 0 ⟨"pg", replicas, 1⟩ poll true), .pass (.write 0 .done)]

theorem excess_replica_settled : ((reconciles 0 1 (threePods "10.0.0.2" true)).foldlM Watch.step {}).any (fun s =>
    (s.tail 0).any (fun tail => tail.before.targetPrimary == "" && s.world.store.current == some tail.result.status) &&
      (s.step (.prune 0 "pg-2")).any (·.deleted.any (·.pod == "pg-2"))) = true := by
  decide +kernel

theorem prune_spares_failover_excess : ∃ s, Watch.Reached Watch.PrunesSettled s ∧ ∃ d ∈ s.deleted, d.pod = "pg-2" ∧
    d.pod ≠ d.published ∧ ∀ status, d.persisted = some status → d.pod ≠ status.targetPrimary := by
  obtain ⟨before, ran, both⟩ := (Option.any_eq_true _ _).mp excess_replica_settled
  rw [Bool.and_eq_true, Option.any_eq_true, Option.any_eq_true] at both
  obtain ⟨⟨tail, found, settled⟩, s, pruned, deletes⟩ := both
  rw [Bool.and_eq_true, beq_iff_eq, beq_iff_eq] at settled
  have passes : ∀ a ∈ reconciles 0 1 (threePods "10.0.0.2" true), ∀ s, Watch.PrunesSettled s a := by
    simp [reconciles, Watch.PrunesSettled]
  have met : Watch.PrunesSettled before (.prune 0 "pg-2") := by
    intro other same
    cases Option.some.inj (found.symm.trans same)
    exact ⟨fun status stored => Option.some.inj (stored.symm.trans settled.2), .inl settled.1⟩
  have reached : Watch.Reached Watch.PrunesSettled s := .next (Watch.Reached.run (.start rfl) passes ran) ⟨_, met, pruned⟩
  obtain ⟨d, member, pod⟩ := List.any_eq_true.mp deletes
  obtain ⟨always, settles⟩ := prune_spares_failover s
  exact ⟨s, reached, d, member, beq_iff_eq.mp pod, (always _ reached d member).1, settles reached d member⟩

/-- The primary loses its address and `pg-2` is elected; the primary returns, not ready yet, when only one instance is
desired any more. -/
def scaledDown : List Action :=
  reconciles 0 3 (threePods "10.0.0.2" true) ++ reconciles 1 3 (threePods "10.0.0.2" true) ++
    reconciles 2 3 (threePods "" true) ++ reconciles 3 1 (threePods "10.0.0.2" false) ++ [.prune 0 "pg-2"]

theorem scaledDown_deletes : (scaledDown.foldlM Watch.step {}).any (fun s => s.deleted.any fun d =>
    d.pod == "pg-2" && d.persisted.any fun status => status.targetPrimary == "pg-2" && status.systemID == "7") = true := by
  decide +kernel

/-- The scale-down deletes the pod that the failover has committed to. -/
theorem committed_target_pruned : ∃ s, Watch.Reached (fun _ _ => True) s ∧
    ∃ d ∈ s.deleted, ∃ status, d.persisted = some status ∧ d.pod = "pg-2" ∧ status.targetPrimary = "pg-2" := by
  obtain ⟨s, ran, deletes⟩ := (Option.any_eq_true _ _).mp scaledDown_deletes
  obtain ⟨d, member, both⟩ := List.any_eq_true.mp deletes
  rw [Bool.and_eq_true, beq_iff_eq, Option.any_eq_true] at both
  obtain ⟨pod, status, persisted, target⟩ := both
  rw [Bool.and_eq_true, beq_iff_eq] at target
  exact ⟨s, Watch.Reached.run (.start rfl) (fun _ _ _ => trivial) ran, d, member, status, persisted, pod, target.1⟩

end PgShard.Failover
