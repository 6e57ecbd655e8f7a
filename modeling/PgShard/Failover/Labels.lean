import PgShard.Failover.Aggregate
import PgShard.Failover.LatchOrder

/-! The role labels that point the read and write services at the pods. -/

namespace PgShard.Failover

def roleLabelPrimary : String := "primary"

def roleLabelReplica : String := "replica"

/-- A pod as `syncRoleLabels` lists it; the role is the value of the label, empty without one. -/
structure LabeledPod where
  name : String
  controlled : Bool := true
  role : String := roleLabelReplica
  deriving DecidableEq

structure Labels where
  pods : List LabeledPod
  distinct : (pods.map (·.name)).Nodup

/-- The label that a poll asks for. A replica whose role is unconfirmed in this poll keeps its label. -/
def wantedRole (status : Status) (fenced : List String) (pod : LabeledPod) : String :=
  let confirmedStandby := status.instances.any fun s => s.role == .standby && s.pod == pod.name
  if pod.name = status.currentPrimary then roleLabelPrimary
  else if confirmedStandby then roleLabelReplica
  else if pod.role = roleLabelReplica ∧ pod.name ∉ fenced then roleLabelReplica
  else ""

def syncRole (status : Status) (fenced : List String) (pod : LabeledPod) : LabeledPod :=
  if !pod.controlled then pod else { pod with role := wantedRole status fenced pod }

theorem syncRole_name {status : Status} {fenced : List String} {pod : LabeledPod} :
    (syncRole status fenced pod).name = pod.name ∧ (syncRole status fenced pod).controlled = pod.controlled := by
  unfold syncRole
  split <;> exact ⟨rfl, rfl⟩

theorem Labels.distinct_synced (labels : Labels) (status : Status) (fenced : List String) :
    ((labels.pods.map (syncRole status fenced)).map (·.name)).Nodup := by
  have names : (labels.pods.map (syncRole status fenced)).map (·.name) = labels.pods.map (·.name) := by
    rw [List.map_map]
    exact List.map_congr_left fun _ _ => syncRole_name.1
  rw [names]
  exact labels.distinct

/-- `syncRoleLabels`, if every patch succeeds. -/
def syncRoleLabels (status : Status) (fenced : List String) (labels : Labels) : Labels where
  pods := labels.pods.map (syncRole status fenced)
  distinct := labels.distinct_synced status fenced

variable {owner : Owner} {poll : Poll} {before status : Status} {fenced : List String} {labels : Labels}
  {pod p q : LabeledPod}

def Poll.reportsPrimary (poll : Poll) (name : String) : Prop :=
  ∃ p ∈ poll.polled, p.name = name ∧ p.view.isPrimary = true

theorem reportsPrimary_view {name : String} :
    poll.reportsPrimary name ↔ ∃ v ∈ poll.views, v.pod = name ∧ v.isPrimary = true := by
  simp [Poll.reportsPrimary, Poll.mem_views, Pod.view_pod]

theorem reportsPrimary_unconfirmed {name : String} (reports : poll.reportsPrimary name) :
    ((aggregateStatus owner poll before).status.instances.any fun s => s.role == .standby && s.pod == name) = false := by
  obtain ⟨p, listed, rfl, primary⟩ := reports
  rw [aggregateStatus_published.2.2, believed, List.any_map, List.any_eq_false]
  intro q member both
  simp only [Function.comp_apply, Bool.and_eq_true, beq_iff_eq, Pod.believed_pod] at both
  obtain ⟨standby, same⟩ := both
  have names : (poll.polled.map (·.name)).Nodup := poll.distinct.sublist (List.filter_sublist.map _)
  cases List.inj_on_of_nodup_map names member listed same
  have claims := Pod.state_primary.trans primary
  rw [beq_iff_eq] at claims
  unfold Pod.believed at standby
  split at standby
  · cases standby
  · cases claims.symm.trans standby

theorem wantedRole_reportsPrimary (reports : poll.reportsPrimary pod.name) :
    wantedRole (aggregateStatus owner poll before).status fenced pod = roleLabelReplica ↔
      pod.name ≠ (aggregateStatus owner poll before).status.currentPrimary ∧ pod.name ∉ fenced ∧
        pod.role = roleLabelReplica := by
  simp only [wantedRole, reportsPrimary_unconfirmed reports, Bool.false_eq_true, if_false]
  by_cases published : pod.name = (aggregateStatus owner poll before).status.currentPrimary
  · simp [published, roleLabelPrimary, roleLabelReplica]
  · by_cases kept : pod.role = roleLabelReplica ∧ pod.name ∉ fenced
    · simp [published, kept.1, kept.2]
    · rw [if_neg published, if_neg kept]
      simp only [roleLabelReplica, String.reduceEq, false_iff]
      exact fun all => kept ⟨all.2.2, all.2.1⟩

theorem wantedRole_primary (wanted : wantedRole status fenced pod = roleLabelPrimary) :
    pod.name = status.currentPrimary := by
  by_contra other
  simp only [wantedRole, if_neg other] at wanted
  split_ifs at wanted <;> exact absurd wanted (by decide)

/-! ## Claims that stand against each other -/

/-- The timeline on record after a view. -/
def raises (id : Nat) (current committed : String) (timeline : Int) (v : InstanceView) : Int :=
  if advances id current committed timeline v then v.timeline else timeline

/-- The system id that the poll is held against: the latched one, or if none is latched that of a pod which the status
names, 0 if none of them claims to be primary. A latch that is malformed gives none, and neither do pods that disagree
before there is one. -/
def lineage (poll : Poll) (before : Status) : Option Nat :=
  match parseLatchedID before.systemID with
  | .error _ => none
  | .ok id =>
    if id ≠ 0 then some id
    else if disagreement poll.views then none
    else some (((poll.views.find? (·.claims before.currentPrimary before.targetPrimary)).map (·.systemID)).getD 0)

/-- A second pod claims to be primary beside `v`: of the same lineage, while `v` is the committed target or on the
recorded timeline, or before there is a lineage to hold them against. -/
def Contested (poll : Poll) (before : Status) (v : InstanceView) : Prop :=
  ∃ id, lineage poll before = some id ∧
    (id ≠ 0 → (v.systemID = 0 ∨ v.systemID = id) ∧ (v.pod = before.targetPrimary ∨ v.systemID = id ∧ v.timeline ≠ 0 ∧
      v.timeline = poll.views.foldl (raises id before.currentPrimary before.targetPrimary) before.timeline)) ∧
    ∃ w ∈ poll.views, w ≠ v ∧ w.isPrimary = true ∧ (id = 0 ∨ w.systemID = 0 ∨ w.systemID = id)

section Latching

variable {views : List InstanceView} {current committed : String} {l : Latch} {disagree : Bool} {id : Nat}

theorem Latch.advance_timeline {v : InstanceView} :
    (l.advance current committed v).timeline = raises l.expectedID current committed l.timeline v := by
  unfold Latch.advance raises
  split <;> rfl

theorem latchViews_timeline (latched : l.expectedID ≠ 0) :
    (views.foldl (latchView disagree true current committed) l).timeline =
      views.foldl (raises l.expectedID current committed) l.timeline := by
  induction views generalizing l with
  | nil => rfl
  | cons v rest ih =>
    have kept := (@Latch.advance_kept v l current committed).2
    rw [List.foldl_cons, latchView_latched latched, ih (kept.symm ▸ latched), kept, Latch.advance_timeline,
      List.foldl_cons]

theorem latchViews_unset (unset : l.expectedID = 0) (nonzero : id ≠ 0)
    (same : ∀ v ∈ views, v.claims current committed = true → v.systemID = id) :
    ((∀ v ∈ views, v.claims current committed = false) →
      (views.foldl (latchView false true current committed) l).expectedID = 0) ∧
    ((∃ v ∈ views, v.claims current committed = true) →
      (views.foldl (latchView false true current committed) l).expectedID = id ∧
      (views.foldl (latchView false true current committed) l).timeline =
        views.foldl (raises id current committed) l.timeline) := by
  induction views generalizing l with
  | nil => simp [unset]
  | cons v rest ih =>
    obtain ⟨own, others⟩ := List.forall_mem_cons.mp same
    simp only [List.foldl_cons, List.forall_mem_cons, List.exists_mem_cons_iff]
    cases claims : v.claims current committed with
    | false =>
      have still : raises id current committed l.timeline v = l.timeline := by
        simp only [raises, InstanceView.claims] at claims ⊢
        have observed := v.unpolled
        grind [advances]
      simpa [latchView_silent claims, still] using ih unset others
    | true =>
      have first : latchView false true current committed l v =
          ({ l with systemID := toString id, expectedID := id } : Latch).advance current committed v := by
        rw [← @latchView_latched false v _ current committed nonzero]
        have own := own claims
        simp only [InstanceView.claims] at claims
        unfold latchView
        grind
      have kept := (@Latch.advance_kept v { l with systemID := toString id, expectedID := id } current committed).2
      have known : (latchView false true current committed l v).expectedID = id := by rw [first, kept]
      refine ⟨fun none => by simp at none, fun _ => ?_⟩
      rw [(latchViews_latched (known.symm ▸ nonzero)).2, latchViews_timeline (known.symm ▸ nonzero), known]
      refine ⟨rfl, congrArg (List.foldl _ · rest) ?_⟩
      rw [first, Latch.advance_timeline]

theorem latchViews_disagreeing (unset : l.expectedID = 0) :
    views.foldl (latchView true true current committed) l = l := by
  induction views with
  | nil => rfl
  | cons v rest ih =>
    have skipped : latchView true true current committed l v = l := by
      simp [latchView, unset]
    rw [List.foldl_cons, skipped, ih]

theorem fence_all {reason : InstanceView → String} {a : IdentityAssessment} :
    (views.foldl (fun a v => a.fence v (reason v)) a).unrecognized = a.unrecognized ++ views.map (·.pod) := by
  induction views generalizing a with
  | nil => simp
  | cons v rest ih =>
    rw [List.foldl_cons, ih]
    simp [IdentityAssessment.fence]

end Latching

/-- What the poll is assessed against, by its lineage. -/
theorem identityOf_lineage (poll : Poll) (before : Status) :
    match lineage poll before with
    | none => (identityOf poll before).malformed = true ∨
        (identityOf poll before).systemID = 0 ∧ disagreement poll.views = true
    | some id => (identityOf poll before).malformed = false ∧ (identityOf poll before).systemID = id ∧
        (id = 0 → disagreement poll.views = false) ∧ (id ≠ 0 → (identityOf poll before).timeline =
          poll.views.foldl (raises id before.currentPrimary before.targetPrimary) before.timeline) := by
  simp only [lineage, identityOf, assess, latchIdentity]
  cases parses : parseLatchedID before.systemID with
  | error e => exact .inl rfl
  | ok id =>
    by_cases nonzero : id = 0
    · subst nonzero
      cases agree : disagreement poll.views with
      | true => exact .inr ⟨by simp [latchViews_disagreeing], rfl⟩
      | false =>
        have latched := @latchViews_unset poll.views before.currentPrimary before.targetPrimary
          ⟨before.systemID, 0, before.timeline⟩
        cases heard : poll.views.find? (·.claims before.currentPrimary before.targetPrimary) with
        | some u =>
          have listed := List.mem_of_find?_eq_some heard
          have claims := List.find?_some heard
          have reports : u.systemID ≠ 0 := by
            simp only [InstanceView.claims, Bool.and_eq_true, bne_iff_ne] at claims
            exact claims.2
          obtain ⟨known, recorded⟩ := (latched rfl reports fun v member claims' =>
            claimants_agree agree member listed claims' claims).2 ⟨u, listed, claims⟩
          exact ⟨rfl, known, fun zero => absurd zero reports, fun _ => recorded⟩
        | none =>
          have silent : ∀ u ∈ poll.views, u.claims before.currentPrimary before.targetPrimary = false := by
            simpa using heard
          refine ⟨rfl, (latched rfl one_ne_zero fun v member claims => ?_).1 silent, fun _ => rfl, absurd rfl⟩
          cases (silent v member).symm.trans claims
    · have kept : (latchOf poll before id).expectedID = id := (latchViews_latched nonzero).2
      rw [latchOf] at kept
      simp only [nonzero, ne_eq, not_false_eq_true, if_true]
      exact ⟨rfl, kept, fun zero => zero.elim, fun _ => latchViews_timeline nonzero⟩

variable {v : InstanceView}

theorem contested_unset (member : v ∈ poll.views) (primary : v.isPrimary = true)
    (parsed : (identityOf poll before).malformed = false) (unset : (identityOf poll before).systemID = 0)
    (agree : disagreement poll.views = false) (known : lineage poll before = some 0) :
    v.pod ≠ (aggregateStatus owner poll before).status.currentPrimary ∧
      v.pod ∉ (assessIdentity poll.views (identityOf poll before)).unrecognized ↔ Contested poll before v := by
  have calm : assessIdentity poll.views (identityOf poll before) =
      { kept := poll.views, anyStartedUnobserved := poll.views.any fun v => !v.observed && v.host != "" } := by
    simp [assessIdentity, parsed, unset, agree]
  have roles := @believed_roles poll (assessIdentity poll.views (identityOf poll before)) (fun _ => false)
    fun p _ => by rw [calm]; rfl
  have published : (aggregateStatus owner poll before).status.currentPrimary =
      sole ((poll.views.filter (·.isPrimary)).map (·.pod)) := by
    rw [aggregateStatus_published.1, assessedStatus_currentPrimary, roles, calm]
    simp
  rw [published, calm, ne_comm, ne_eq, sole_views member]
  simp only [Contested, known, Option.some.injEq, exists_eq_left', ne_eq, not_true_eq_false, false_implies, true_and,
    true_or, and_true, List.not_mem_nil, not_false_eq_true]
  constructor
  · intro several
    push Not at several
    obtain ⟨w, other, ⟨claim, apart⟩ | ⟨claim, rfl⟩⟩ := several
    · exact ⟨w, other, apart, claim⟩
    · exact absurd primary claim
  · rintro ⟨w, other, apart, claim⟩ only
    exact apart ((only w other).mp claim)

theorem contested_known (member : v ∈ poll.views) (primary : v.isPrimary = true)
    (parsed : (identityOf poll before).malformed = false) (nonzero : (identityOf poll before).systemID ≠ 0)
    (known : lineage poll before = some (identityOf poll before).systemID)
    (recorded : (identityOf poll before).timeline = poll.views.foldl
      (raises (identityOf poll before).systemID before.currentPrimary before.targetPrimary) before.timeline) :
    v.pod ≠ (aggregateStatus owner poll before).status.currentPrimary ∧
      v.pod ∉ (assessIdentity poll.views (identityOf poll before)).unrecognized ↔ Contested poll before v := by
  have free : v.pod ∉ (assessIdentity poll.views (identityOf poll before)).unrecognized ↔
      (identityOf poll before).foreign v = false ∧ (identityOf poll before).disputes v = false := by
    have strips := assessIdentity_rogue_view parsed nonzero member
    simp only [IdentityAssessment.rogue, IdentityInputs.strips, IdentityInputs.blocks, primary, Bool.not_true,
      Bool.and_false, Bool.false_and, Bool.or_false] at strips
    rw [← List.contains_iff_mem, strips, Bool.not_eq_true, Bool.or_eq_false_iff]
  have foreign : ∀ w, (identityOf poll before).foreign w = false ↔
      w.systemID = 0 ∨ w.systemID = (identityOf poll before).systemID := by
    intro w
    simp [IdentityInputs.foreign, or_iff_not_imp_left]
  have recognised : (identityOf poll before).foreign v = false → ((identityOf poll before).disputes v = false ↔
      v.pod = before.targetPrimary ∨ v.systemID = (identityOf poll before).systemID ∧ v.timeline ≠ 0 ∧
        v.timeline = (identityOf poll before).timeline) := by
    intro own
    have named := Poll.views_named member
    have committed : (identityOf poll before).committed = before.targetPrimary := rfl
    simp only [IdentityInputs.disputes, own, primary, IdentityInputs.isCommitted, IdentityInputs.vouched, committed]
    grind
  rw [free, ne_comm, ne_eq, published_iff parsed nonzero member]
  simp only [Contested, known, Option.some.injEq, exists_eq_left', nonzero, ne_eq, not_false_eq_true, true_implies,
    false_or, ← recorded, ← foreign]
  constructor
  · rintro ⟨unpublished, own, calm⟩
    refine ⟨⟨own, (recognised own).mp calm⟩, ?_⟩
    by_contra none
    push Not at none
    refine unpublished ⟨primary, own, calm, fun w other claim same => ?_⟩
    by_contra apart
    exact none w other apart claim same
  · rintro ⟨⟨own, recognised'⟩, w, other, apart, claim, same⟩
    exact ⟨fun published => apart (published.2.2.2 w other claim same), own, (recognised own).mpr recognised'⟩

/-- A pod that claims to be primary is neither published nor fenced exactly if its claim is contested. -/
theorem contested_iff (member : v ∈ poll.views) (primary : v.isPrimary = true) :
    v.pod ≠ (aggregateStatus owner poll before).status.currentPrimary ∧
      v.pod ∉ (aggregateStatus owner poll before).fenced ↔ Contested poll before v := by
  have fenced : (aggregateStatus owner poll before).fenced =
    (assessIdentity poll.views (identityOf poll before)).unrecognized := rfl
  have listed : v.pod ∈ poll.views.map (·.pod) := List.mem_map_of_mem member
  have held := identityOf_lineage poll before
  rw [fenced]
  cases known : lineage poll before with
  | none =>
    rw [known] at held
    refine iff_of_false (fun free => free.2 ?_) fun ⟨id, found, _⟩ => by cases known.symm.trans found
    rcases held with malformed | ⟨unset, disagree⟩
    · simp only [assessIdentity, malformed, if_true, fence_all]
      exact List.mem_append_right _ listed
    · cases malformed : (identityOf poll before).malformed <;>
        simp only [assessIdentity, malformed, unset, disagree, if_true, Bool.false_eq_true, if_false, fence_all] <;>
        exact List.mem_append_right _ listed
  | some id =>
    rw [known] at held
    obtain ⟨parsed, rfl, agree, recorded⟩ := held
    by_cases unset : (identityOf poll before).systemID = 0
    · exact contested_unset member primary parsed unset (agree unset) (known.trans (congrArg some unset))
    · exact contested_known member primary parsed unset known (recorded unset)

/-- After a poll and the sync of the labels no pod that has reported the primary role has the label of a replica,
exactly if none had it whose claim is contested; and at most one pod has the label of the primary. -/
theorem synced_labels (owner : Owner) (poll : Poll) (before : Status) (labels : Labels) :
    let polled := aggregateStatus owner poll before
    let synced := syncRoleLabels polled.status polled.fenced labels
    ((∀ p ∈ synced.pods, p.controlled = true → poll.reportsPrimary p.name → p.role ≠ roleLabelReplica) ↔
      ∀ p ∈ labels.pods, p.controlled = true → p.role = roleLabelReplica →
        ∀ v ∈ poll.views, v.pod = p.name → v.isPrimary = true → ¬ Contested poll before v) ∧
    ∀ p ∈ synced.pods, ∀ q ∈ synced.pods, p.controlled = true → q.controlled = true →
      p.role = roleLabelPrimary → q.role = roleLabelPrimary → p = q := by
  intro polled synced
  constructor
  · refine List.forall_mem_map.trans (forall_congr' fun p => forall_congr' fun listed => ?_)
    rw [syncRole_name.1, syncRole_name.2]
    refine forall_congr' fun controlled => ?_
    have role : (syncRole polled.status polled.fenced p).role = wantedRole polled.status polled.fenced p := by
      simp [syncRole, controlled]
    rw [role, reportsPrimary_view]
    constructor
    · rintro settled labelled v member named primary contested
      have unsettled := (@contested_iff owner poll before v member primary).mpr contested
      refine settled ⟨v, member, named, primary⟩ ((wantedRole_reportsPrimary ?_).mpr ⟨?_, ?_, labelled⟩)
      · exact reportsPrimary_view.mpr ⟨v, member, named, primary⟩
      · exact named ▸ unsettled.1
      · exact named ▸ unsettled.2
    · rintro uncontested ⟨v, member, named, primary⟩ wanted
      obtain ⟨unpublished, unfenced, labelled⟩ :=
        (wantedRole_reportsPrimary (reportsPrimary_view.mpr ⟨v, member, named, primary⟩)).mp wanted
      refine uncontested labelled v member named primary ((@contested_iff owner poll before v member primary).mp ⟨?_, ?_⟩)
      · exact named.symm ▸ unpublished
      · exact named.symm ▸ unfenced
  · intro p member q member' controlled controlled' primary primary'
    obtain ⟨p, listed, rfl⟩ := List.mem_map.mp member
    obtain ⟨q, listed', rfl⟩ := List.mem_map.mp member'
    have named : ∀ x : LabeledPod, (syncRole polled.status polled.fenced x).controlled = true →
        (syncRole polled.status polled.fenced x).role = roleLabelPrimary → x.name = polled.status.currentPrimary := by
      intro x controlled primary
      rw [syncRole_name.2] at controlled
      have wanted : wantedRole polled.status polled.fenced x = roleLabelPrimary := by
        simpa [syncRole, controlled] using primary
      exact wantedRole_primary wanted
    rw [List.inj_on_of_nodup_map labels.distinct listed listed'
      ((named p controlled primary).trans (named q controlled' primary').symm)]

def returnedPoll : Poll where
  pods := [⟨"pg-0", "10.0.0.1", true, some { ready := true, role := .primary, systemId := 7, timeline := 2 }⟩,
    ⟨"pg-2", "10.0.0.3", true, some { ready := true, role := .primary, systemId := 7, timeline := 3 }⟩]
  named := by simp
  distinct := by simp

def failingOver : Status :=
  { targetPrimary := "pg-2", decisionEpoch := 1, timeline := 2, systemID := "7", phase := .failingOver }

def standingLabels : Labels where
  pods := [⟨"pg-0", true, "primary"⟩, ⟨"pg-2", true, "replica"⟩]
  distinct := by simp

/-- The new primary is neither published, since the old one disputes it, nor fenced, and so stays a replica by its
label. -/
theorem new_primary_labelled_replica :
    let polled := aggregateStatus ⟨"pg", 2, 1⟩ returnedPoll failingOver
    returnedPoll.reportsPrimary "pg-2" ∧
    ⟨"pg-2", true, roleLabelReplica⟩ ∈ (syncRoleLabels polled.status polled.fenced standingLabels).pods := by
  refine ⟨⟨_, List.mem_cons_of_mem _ List.mem_cons_self, rfl, rfl⟩, ?_⟩
  decide +kernel

def replicaLabels : Labels where
  pods := [⟨"pg-1", true, "replica"⟩, ⟨"pg-2", true, "replica"⟩]
  distinct := by simp

/-- Without the old primary the new one is published, and gets its label. -/
theorem synced_labels_promoted :
    let polled := aggregateStatus ⟨"pg", 2, 1⟩ (promotedPoll 7 3) committedStatus
    let synced := syncRoleLabels polled.status polled.fenced replicaLabels
    ⟨"pg-1", true, roleLabelPrimary⟩ ∈ synced.pods ∧
    ∀ p ∈ synced.pods, p.controlled = true → (promotedPoll 7 3).reportsPrimary p.name → p.role ≠ roleLabelReplica := by
  have single : ∀ v ∈ (promotedPoll 7 3).views, v.isPrimary = true → ∀ w ∈ (promotedPoll 7 3).views,
      w.isPrimary = true → w = v := by
    decide +kernel
  refine ⟨by decide +kernel,
    (synced_labels ⟨"pg", 2, 1⟩ (promotedPoll 7 3) committedStatus replicaLabels).1.mpr ?_⟩
  rintro p _ _ _ v member _ primary ⟨_, _, _, w, other, apart, claim, _⟩
  exact apart (single v member primary w other claim)

end PgShard.Failover
