import PgShard.Failover.Identity

/-! The election of a failover's target from the views of one poll. -/

namespace PgShard.Failover

structure FailoverDecision where
  warranted : Bool := false
  targetPrimary : String := ""
  wait : Bool := false
  deriving DecidableEq

structure InstanceSummary where
  hasReadyPrimary : Bool := false
  anyClaimsPrimary : Bool := false
  anyRunningUnobserved : Bool := false
  anyRoleUnconfirmed : Bool := false
  anyReceiverActive : Bool := false
  committedDrivable : Bool := false
  committedLSN : Nat := 0
  maxObservedLSN : Nat := 0
  candidates : List InstanceView := []

def summarizeView (committedTarget : String) (s : InstanceSummary) (v : InstanceView) : InstanceSummary where
  hasReadyPrimary := s.hasReadyPrimary || (v.isPrimary && v.ready)
  anyClaimsPrimary := s.anyClaimsPrimary || v.isPrimary
  anyRunningUnobserved := s.anyRunningUnobserved || (!v.observed && v.host != "")
  anyRoleUnconfirmed :=
    s.anyRoleUnconfirmed || (v.observed && !v.isPrimary && !v.isStandby && v.pod != committedTarget)
  anyReceiverActive := s.anyReceiverActive || v.walReceiver
  committedDrivable :=
    s.committedDrivable || (committedTarget != "" && v.pod == committedTarget && v.observed && !v.isPrimary)
  committedLSN :=
    if committedTarget != "" && v.pod == committedTarget && v.observed && !v.isPrimary then v.receivedLSN
    else s.committedLSN
  maxObservedLSN := if v.observed && s.maxObservedLSN < v.receivedLSN then v.receivedLSN else s.maxObservedLSN
  candidates := if v.ready && v.isStandby then s.candidates ++ [v] else s.candidates

def summarizeInstances (instances : List InstanceView) (committedTarget : String) : InstanceSummary :=
  instances.foldl (summarizeView committedTarget) {}

def preferred (a b : InstanceView) : Bool :=
  if a.receivedLSN ≠ b.receivedLSN then b.receivedLSN < a.receivedLSN else a.pod ≤ b.pod

def sortCandidates (candidates : List InstanceView) : List InstanceView :=
  candidates.insertionSort fun a b => preferred a b = true

def evaluateFailover (instances : List InstanceView) (committedTarget : String) : FailoverDecision :=
  let s := summarizeInstances instances committedTarget
  if s.hasReadyPrimary then {}
  else if s.candidates.isEmpty && !s.committedDrivable && committedTarget == "" then {}
  else if s.anyClaimsPrimary || s.anyRunningUnobserved || s.anyRoleUnconfirmed || s.anyReceiverActive then
    { warranted := true, wait := true }
  else if committedTarget != "" then
    if !s.committedDrivable then { warranted := true, wait := true }
    else if s.committedLSN < s.maxObservedLSN then { warranted := true, wait := true }
    else { warranted := true, targetPrimary := committedTarget }
  else
    match sortCandidates s.candidates with
    | [] => {}
    | best :: _ =>
      if best.receivedLSN < s.maxObservedLSN then { warranted := true, wait := true }
      else { warranted := true, targetPrimary := best.pod }

/-! ## The summary -/

variable {instances views : List InstanceView} {committed : String} {v : InstanceView} {s : InstanceSummary}

def drivable (committed : String) (v : InstanceView) : Bool :=
  committed != "" && v.pod == committed && v.observed && !v.isPrimary

theorem summarizeViews_eq : (instances.foldl (summarizeView committed) s).hasReadyPrimary =
      (s.hasReadyPrimary || instances.any fun v => v.isPrimary && v.ready) ∧
    (instances.foldl (summarizeView committed) s).anyClaimsPrimary = (s.anyClaimsPrimary || instances.any (·.isPrimary)) ∧
    (instances.foldl (summarizeView committed) s).anyRunningUnobserved =
      (s.anyRunningUnobserved || instances.any fun v => !v.observed && v.host != "") ∧
    (instances.foldl (summarizeView committed) s).anyRoleUnconfirmed = (s.anyRoleUnconfirmed ||
      instances.any fun v => v.observed && !v.isPrimary && !v.isStandby && v.pod != committed) ∧
    (instances.foldl (summarizeView committed) s).anyReceiverActive =
      (s.anyReceiverActive || instances.any (·.walReceiver)) ∧
    (instances.foldl (summarizeView committed) s).committedDrivable =
      (s.committedDrivable || instances.any (drivable committed)) ∧
    (instances.foldl (summarizeView committed) s).candidates =
      s.candidates ++ instances.filter fun v => v.ready && v.isStandby := by
  induction instances generalizing s with
  | nil => simp
  | cons v rest ih =>
    obtain ⟨ready, claims, running, roles, receivers, drives, candidates⟩ := @ih (summarizeView committed s v)
    simp only [List.foldl_cons, ready, claims, running, roles, receivers, drives, candidates, List.any_cons]
    refine ⟨?_, ?_, ?_, ?_, ?_, ?_, ?_⟩
    all_goals simp only [summarizeView, drivable, Bool.or_assoc]
    by_cases candidate : (v.ready && v.isStandby) = true <;> simp [candidate]

theorem summarizeViews_max {bound : Nat} : (instances.foldl (summarizeView committed) s).maxObservedLSN ≤ bound ↔
    s.maxObservedLSN ≤ bound ∧ ∀ v ∈ instances, v.observed = true → v.receivedLSN ≤ bound := by
  induction instances generalizing s with
  | nil => simp
  | cons v rest ih =>
    rw [List.foldl_cons, ih, List.forall_mem_cons, ← and_assoc]
    refine and_congr_left fun _ => ?_
    simp only [summarizeView]
    cases v.observed with
    | false => simp
    | true =>
      simp only [Bool.true_and, decide_eq_true_eq, forall_const]
      split <;> omega

theorem summarizeViews_committed {lsn : Nat} (same : ∀ v ∈ instances, drivable committed v = true → v.receivedLSN = lsn)
    (known : s.committedLSN = lsn ∨ ∃ v ∈ instances, drivable committed v = true) :
    (instances.foldl (summarizeView committed) s).committedLSN = lsn := by
  induction instances generalizing s with
  | nil =>
    rcases known with start | ⟨v, member, -⟩
    · exact start
    · exact absurd member List.not_mem_nil
  | cons v rest ih =>
    obtain ⟨here, later⟩ := List.forall_mem_cons.mp same
    refine ih later ?_
    by_cases drives : drivable committed v = true
    · refine .inl ?_
      simp only [summarizeView]
      rw [if_pos (by exact drives)]
      exact here drives
    · rcases known with start | ⟨w, member, drives'⟩
      · refine .inl ?_
        simp only [summarizeView]
        rw [if_neg (by exact drives)]
        exact start
      · rcases List.mem_cons.mp member with rfl | member
        · exact absurd drives' drives
        · exact .inr ⟨w, member, drives'⟩

/-! ## The order of candidates -/

theorem preferred_iff {a b : InstanceView} : preferred a b = true ↔
    b.receivedLSN < a.receivedLSN ∨ a.receivedLSN = b.receivedLSN ∧ a.pod ≤ b.pod := by
  unfold preferred
  by_cases same : a.receivedLSN = b.receivedLSN
  · simp [same]
  · rw [if_pos same]
    simp [same]

theorem preferred_trans {a b c : InstanceView} (first : preferred a b = true) (second : preferred b c = true) :
    preferred a c = true := by
  rw [preferred_iff] at *
  rcases first with first | ⟨first, before⟩ <;> rcases second with second | ⟨second, before'⟩
  · exact .inl (second.trans first)
  · exact .inl (second ▸ first)
  · exact .inl (first ▸ second)
  · exact .inr ⟨first.trans second, before.trans before'⟩

theorem preferred_total (a b : InstanceView) : preferred a b = true ∨ preferred b a = true := by
  rw [preferred_iff, preferred_iff]
  rcases lt_trichotomy a.receivedLSN b.receivedLSN with less | same | more
  · exact .inr (.inl less)
  · rcases le_total a.pod b.pod with before | after
    · exact .inl (.inr ⟨same, before⟩)
    · exact .inr (.inr ⟨same.symm, after⟩)
  · exact .inl (.inl more)

theorem sortCandidates_sorted (l : List InstanceView) : (sortCandidates l).Pairwise fun a b => preferred a b = true :=
  have : Std.Total fun a b : InstanceView => preferred a b = true := ⟨preferred_total⟩
  have : IsTrans InstanceView fun a b => preferred a b = true := ⟨fun _ _ _ => preferred_trans⟩
  List.pairwise_insertionSort _ l

theorem sortCandidates_perm (l : List InstanceView) : (sortCandidates l).Perm l :=
  List.perm_insertionSort _ l

theorem sortCandidates_eq_of_perm {l l' : List InstanceView} (perm : l.Perm l') (distinct : (l.map (·.pod)).Nodup) :
    sortCandidates l = sortCandidates l' := by
  refine List.Perm.eq_of_pairwise ?_ (sortCandidates_sorted l) (sortCandidates_sorted l') ?_
  · intro a b first second before after
    replace first := (sortCandidates_perm l).mem_iff.mp first
    replace second := perm.mem_iff.mpr ((sortCandidates_perm l').mem_iff.mp second)
    rw [preferred_iff] at before after
    have pods : a.pod = b.pod := by
      rcases before with before | ⟨same, before⟩ <;> rcases after with after | ⟨same', after⟩
      · omega
      · omega
      · omega
      · exact String.le_antisymm before after
    exact List.inj_on_of_nodup_map distinct first second pods
  · exact (sortCandidates_perm l).trans (perm.trans (sortCandidates_perm l').symm)

theorem sortCandidates_mem {l rest : List InstanceView} {best : InstanceView} (sorted : sortCandidates l = best :: rest) :
    best ∈ l :=
  (sortCandidates_perm l).mem_iff.mp (sorted ▸ List.mem_cons_self)

/-! ## The decision -/

/-- Every instance is accounted for, none claims to be primary and no WAL is in
flight. -/
structure Settled (instances : List InstanceView) : Prop where
  unclaimed : ∀ v ∈ instances, v.isPrimary = false
  observed : ∀ v ∈ instances, v.host ≠ "" → v.observed = true
  quiet : ∀ v ∈ instances, v.walReceiver = false

/-- The target's view, and why it may be promoted. -/
structure Electable (instances : List InstanceView) (committed : String) (t : InstanceView) : Prop where
  member : t ∈ instances
  furthest : ∀ v ∈ instances, v.observed = true → v.receivedLSN ≤ t.receivedLSN
  sticky : committed ≠ "" → t.pod = committed
  candidate : committed = "" → t.ready = true ∧ t.isStandby = true

theorem summarizeInstances_settled
    (safe : ((summarizeInstances instances committed).anyClaimsPrimary ||
      (summarizeInstances instances committed).anyRunningUnobserved ||
      (summarizeInstances instances committed).anyRoleUnconfirmed ||
      (summarizeInstances instances committed).anyReceiverActive) = false) : Settled instances := by
  obtain ⟨-, claims, running, -, receivers, -⟩ := @summarizeViews_eq instances committed {}
  simp only [summarizeInstances, claims, running, receivers, Bool.or_eq_false_iff, Bool.false_or, List.any_eq_false] at safe
  obtain ⟨⟨⟨claims, running⟩, -⟩, receivers⟩ := safe
  refine ⟨fun v member => by simpa using claims v member, fun v member started => ?_, fun v member => by simpa using receivers v member⟩
  have := running v member
  simpa [started] using this

theorem drivable_iff : drivable committed v = true ↔
    committed ≠ "" ∧ v.pod = committed ∧ v.observed = true ∧ v.isPrimary = false := by
  simp [drivable, and_assoc]

theorem summarizeInstances_driven (distinct : (instances.map (·.pod)).Nodup)
    (drives : (summarizeInstances instances committed).committedDrivable = true)
    (level : ¬ (summarizeInstances instances committed).committedLSN <
      (summarizeInstances instances committed).maxObservedLSN) : ∃ t, t.pod = committed ∧ Electable instances committed t := by
  obtain ⟨-, -, -, -, -, drivables, -⟩ := @summarizeViews_eq instances committed {}
  simp only [summarizeInstances, drivables, Bool.false_or, List.any_eq_true] at drives
  obtain ⟨t, member, drives⟩ := drives
  obtain ⟨named, pod, -⟩ := drivable_iff.mp drives
  have lsn : (summarizeInstances instances committed).committedLSN = t.receivedLSN := by
    refine summarizeViews_committed (fun v member' drives' => ?_) (.inr ⟨t, member, drives⟩)
    have same : v.pod = t.pod := (drivable_iff.mp drives').2.1.trans pod.symm
    rw [List.inj_on_of_nodup_map distinct member' member same]
  rw [lsn, not_lt] at level
  exact ⟨t, pod, member, (summarizeViews_max.mp level).2, fun _ => pod, fun none => absurd none named⟩

/-- A decision to act names its target: the committed one, or a pod of the snapshot. -/
theorem evaluateFailover_acts (warranted : (evaluateFailover instances committed).warranted = true)
    (acts : (evaluateFailover instances committed).wait = false) :
    committed ≠ "" ∧ (evaluateFailover instances committed).targetPrimary = committed ∨
      ∃ t ∈ instances, (evaluateFailover instances committed).targetPrimary = t.pod := by
  unfold evaluateFailover at warranted acts ⊢
  dsimp only at warranted acts ⊢
  split_ifs at warranted acts ⊢ with _ _ _ commits
  · exact .inl ⟨by simpa using commits, rfl⟩
  · split at warranted
    · cases warranted
    rename_i best rest sorted
    rw [sorted] at acts
    dsimp only at acts
    split_ifs at acts ⊢
    obtain ⟨-, -, -, -, -, -, candidates⟩ := @summarizeViews_eq instances committed {}
    have chosen := sortCandidates_mem sorted
    simp only [summarizeInstances, candidates, List.nil_append, List.mem_filter] at chosen
    exact .inr ⟨best, chosen.1, rfl⟩

theorem evaluateFailover_named (distinct : (instances.map (·.pod)).Nodup)
    (named : (evaluateFailover instances committed).targetPrimary ≠ "") : Settled instances ∧
      ∃ t, t.pod = (evaluateFailover instances committed).targetPrimary ∧ Electable instances committed t := by
  unfold evaluateFailover at named ⊢
  dsimp only at named ⊢
  split at named
  · exact absurd rfl named
  rename_i unready
  rw [if_neg unready]
  split at named
  · exact absurd rfl named
  rename_i something
  rw [if_neg something]
  split at named
  · exact absurd rfl named
  rename_i safe
  rw [if_neg safe]
  refine ⟨summarizeInstances_settled (Bool.eq_false_iff.mpr safe), ?_⟩
  split at named
  · rename_i commits
    rw [if_pos commits]
    split at named
    · exact absurd rfl named
    rename_i drives
    rw [if_neg drives]
    split at named
    · exact absurd rfl named
    rename_i level
    rw [if_neg level]
    exact summarizeInstances_driven distinct (by simpa using drives) level
  · rename_i uncommitted
    rw [if_neg uncommitted]
    split at named
    · exact absurd rfl named
    rename_i best rest sorted
    split at named
    · exact absurd rfl named
    rename_i level
    rw [if_neg level]
    have uncommitted : committed = "" := by simpa using uncommitted
    obtain ⟨-, -, -, -, -, -, candidates⟩ := @summarizeViews_eq instances committed {}
    have chosen := sortCandidates_mem sorted
    simp only [summarizeInstances, candidates, List.nil_append, List.mem_filter, Bool.and_eq_true] at chosen
    exact ⟨best, rfl, chosen.1, (summarizeViews_max.mp (not_lt.mp level)).2, fun commits => absurd uncommitted commits,
      fun _ => chosen.2⟩

theorem evaluateFailover_perm {other : List InstanceView} (perm : instances.Perm other)
    (distinct : (instances.map (·.pod)).Nodup) :
    evaluateFailover other committed = evaluateFailover instances committed := by
  obtain ⟨ready, claims, running, roles, receivers, drives, candidates⟩ := @summarizeViews_eq instances committed {}
  obtain ⟨ready', claims', running', roles', receivers', drives', candidates'⟩ := @summarizeViews_eq other committed {}
  have level : (summarizeInstances other committed).maxObservedLSN = (summarizeInstances instances committed).maxObservedLSN := by
    refine Nat.le_antisymm (summarizeViews_max.mpr ⟨Nat.zero_le _, fun v member => ?_⟩)
      (summarizeViews_max.mpr ⟨Nat.zero_le _, fun v member => ?_⟩)
    · exact (summarizeViews_max.mp (le_refl (summarizeInstances instances committed).maxObservedLSN)).2 v (perm.mem_iff.mpr member)
    · exact (summarizeViews_max.mp (le_refl (summarizeInstances other committed).maxObservedLSN)).2 v (perm.mem_iff.mp member)
  have sorted : sortCandidates (summarizeInstances other committed).candidates =
      sortCandidates (summarizeInstances instances committed).candidates := by
    simp only [summarizeInstances, candidates, candidates', List.nil_append]
    refine (sortCandidates_eq_of_perm (perm.filter _) ?_).symm
    exact distinct.sublist (List.filter_sublist.map _)
  have empty : (summarizeInstances other committed).candidates.isEmpty =
      (summarizeInstances instances committed).candidates.isEmpty := by
    simp only [summarizeInstances, candidates, candidates', List.nil_append]
    exact (perm.filter _).isEmpty_eq.symm
  have driven : (summarizeInstances instances committed).committedDrivable = true →
      (summarizeInstances other committed).committedLSN = (summarizeInstances instances committed).committedLSN := by
    simp only [summarizeInstances, drives, Bool.false_or, List.any_eq_true]
    rintro ⟨t, member, here⟩
    have same : ∀ v ∈ instances, drivable committed v = true → v.receivedLSN = t.receivedLSN := by
      intro v member' drives'
      have pods : v.pod = t.pod := (drivable_iff.mp drives').2.1.trans (drivable_iff.mp here).2.1.symm
      rw [List.inj_on_of_nodup_map distinct member' member pods]
    rw [summarizeViews_committed same (.inr ⟨t, member, here⟩), summarizeViews_committed
      (fun v member' => same v (perm.mem_iff.mpr member')) (.inr ⟨t, perm.mem_iff.mp member, here⟩)]
  have flags : (summarizeInstances other committed).hasReadyPrimary = (summarizeInstances instances committed).hasReadyPrimary ∧
      (summarizeInstances other committed).anyClaimsPrimary = (summarizeInstances instances committed).anyClaimsPrimary ∧
      (summarizeInstances other committed).anyRunningUnobserved =
        (summarizeInstances instances committed).anyRunningUnobserved ∧
      (summarizeInstances other committed).anyRoleUnconfirmed = (summarizeInstances instances committed).anyRoleUnconfirmed ∧
      (summarizeInstances other committed).anyReceiverActive = (summarizeInstances instances committed).anyReceiverActive ∧
      (summarizeInstances other committed).committedDrivable = (summarizeInstances instances committed).committedDrivable := by
    simp only [summarizeInstances, ready, claims, running, roles, receivers, drives, ready', claims', running', roles',
      receivers', drives', perm.any_eq, and_self]
  obtain ⟨ready, claims, running, roles, receivers, drives⟩ := flags
  simp only [evaluateFailover, ready, claims, running, roles, receivers, drives, empty, level, sorted]
  cases drivable : (summarizeInstances instances committed).committedDrivable with
  | false => simp
  | true => rw [driven drivable]

/-! ## The election over an assessed poll -/

variable {inputs : IdentityInputs}

/-- The view is not known to be of another lineage. -/
def SameLineage (inputs : IdentityInputs) (v : InstanceView) : Prop :=
  inputs.systemID ≠ 0 → inputs.foreign v = false

theorem keeps_eq {t : InstanceView} (kept : inputs.keeps v = some t) : inputs.foreign v = false ∧ t.pod = v.pod ∧
    t.host = v.host ∧ t.observed = v.observed ∧ t.receivedLSN = v.receivedLSN ∧ t.walReceiver = v.walReceiver ∧
    t.ready = v.ready ∧ (t.isStandby = true → t = v ∧ inputs.blocks v = false) := by
  unfold IdentityInputs.keeps at kept
  split at kept
  · cases kept
  · rename_i own
    split at kept
    · cases kept
      exact ⟨Bool.eq_false_iff.mpr own, rfl, rfl, rfl, rfl, rfl, rfl, nofun⟩
    · rename_i placed
      cases kept
      exact ⟨Bool.eq_false_iff.mpr own, rfl, rfl, rfl, rfl, rfl, rfl, fun _ => ⟨rfl, Bool.eq_false_iff.mpr placed⟩⟩

theorem keeps_isSome (own : inputs.foreign v = false) : ∃ t, inputs.keeps v = some t := by
  unfold IdentityInputs.keeps
  rw [if_neg (by simp [own])]
  split <;> exact ⟨_, rfl⟩

/-- Each view the election sees is of an instance of the lineage, and all those are
seen. -/
structure Sees (inputs : IdentityInputs) (views kept : List InstanceView) : Prop where
  origin : ∀ t ∈ kept, ∃ v ∈ views, SameLineage inputs v ∧ t.pod = v.pod ∧ t.receivedLSN = v.receivedLSN ∧
    t.ready = v.ready ∧ (t.isStandby = true → t = v ∧ (inputs.systemID ≠ 0 → inputs.blocks v = false))
  complete : ∀ v ∈ views, SameLineage inputs v → ∃ t ∈ kept, t.host = v.host ∧ t.observed = v.observed ∧
    t.receivedLSN = v.receivedLSN ∧ t.walReceiver = v.walReceiver
  distinct : (views.map (·.pod)).Nodup → (kept.map (·.pod)).Nodup

theorem keeps_pods : (views.filterMap inputs.keeps).map (·.pod) = (views.filter (!inputs.foreign ·)).map (·.pod) := by
  induction views with
  | nil => rfl
  | cons v rest ih =>
    cases own : inputs.foreign v with
    | true =>
      have dropped : inputs.keeps v = none := by simp [IdentityInputs.keeps, own]
      simp [dropped, own, ih]
    | false =>
      obtain ⟨t, kept⟩ := keeps_isSome own
      simp [kept, own, ih, (keeps_eq kept).2.1]

theorem assessIdentity_sees (parsed : inputs.malformed = false) : Sees inputs views (assessIdentity views inputs).kept := by
  by_cases latched : inputs.systemID = 0
  · rw [assessIdentity_unlatched parsed latched]
    have all : ∀ v, SameLineage inputs v := fun v later => absurd latched later
    exact ⟨fun t member => ⟨t, member, all t, rfl, rfl, rfl, fun _ => ⟨rfl, fun later => absurd latched later⟩⟩,
      fun v member _ => ⟨v, member, rfl, rfl, rfl, rfl⟩, id⟩
  · rw [assessIdentity_kept parsed latched]
    refine ⟨fun t member => ?_, fun v member own => ?_, fun distinct => ?_⟩
    · obtain ⟨v, member, kept⟩ := List.mem_filterMap.mp member
      obtain ⟨own, pod, -, -, lsn, -, ready, standby⟩ := keeps_eq kept
      exact ⟨v, member, fun _ => own, pod, lsn, ready, fun role => ⟨(standby role).1, fun _ => (standby role).2⟩⟩
    · obtain ⟨t, kept⟩ := keeps_isSome (own latched)
      obtain ⟨-, -, host, observed, lsn, receiver, -⟩ := keeps_eq kept
      exact ⟨t, List.mem_filterMap.mpr ⟨v, member, kept⟩, host, observed, lsn, receiver⟩
    · rw [keeps_pods]
      exact distinct.sublist (List.filter_sublist.map _)

theorem assessIdentity_perm {other : List InstanceView} (parsed : inputs.malformed = false) (perm : views.Perm other) :
    (assessIdentity views inputs).kept.Perm (assessIdentity other inputs).kept := by
  by_cases latched : inputs.systemID = 0
  · rw [assessIdentity_unlatched parsed latched, assessIdentity_unlatched parsed latched]
    exact perm
  · rw [assessIdentity_kept parsed latched, assessIdentity_kept parsed latched]
    exact perm.filterMap _

theorem candidate_placed (placed : inputs.blocks v = false) (uncommitted : inputs.committed = "")
    (own : inputs.foreign v = false) (standby : v.isPrimary = false) (ready : v.ready = true) :
    inputs.ahead v = false ∧ v.systemID ≠ 0 := by
  have observed : v.observed = true := by
    by_contra unobserved
    have := (v.unpolled (by simpa using unobserved)).1
    simp [ready] at this
  simp [IdentityInputs.blocks, IdentityInputs.isCommitted, uncommitted, own, standby, InstanceView.unknown, observed] at placed
  exact ⟨placed.2, placed.1⟩

/-- The failover elects only a safe target: from a poll in which no primary is left,
every started instance of the lineage is observed and no WAL is being received, it
names one that is not behind any; it sticks to a committed target, elects no other
than a placed standby, and does not depend on the order of the views. -/
theorem elected_safe (distinct : (views.map (·.pod)).Nodup) (parsed : inputs.malformed = false) :
    ((evaluateFailover (assessIdentity views inputs).kept inputs.committed).targetPrimary ≠ "" →
      (∀ v ∈ (assessIdentity views inputs).kept, v.isPrimary = false) ∧
      (∀ v ∈ views, SameLineage inputs v → v.host ≠ "" → v.observed = true) ∧
      (∀ v ∈ views, SameLineage inputs v → v.walReceiver = false) ∧
      (∃ t ∈ views, t.pod = (evaluateFailover (assessIdentity views inputs).kept inputs.committed).targetPrimary ∧
        (∀ v ∈ views, SameLineage inputs v → v.observed = true → v.receivedLSN ≤ t.receivedLSN) ∧
        (t.pod = inputs.committed ∨ t.ready = true ∧ t.isStandby = true ∧ SameLineage inputs t ∧
          (inputs.systemID ≠ 0 → inputs.ahead t = false ∧ t.systemID ≠ 0))) ∧
      (inputs.committed ≠ "" →
        (evaluateFailover (assessIdentity views inputs).kept inputs.committed).targetPrimary = inputs.committed)) ∧
    ∀ other, views.Perm other → evaluateFailover (assessIdentity other inputs).kept inputs.committed =
      evaluateFailover (assessIdentity views inputs).kept inputs.committed := by
  have sees := @assessIdentity_sees views inputs parsed
  refine ⟨fun named => ?_, fun other perm =>
    evaluateFailover_perm (assessIdentity_perm parsed perm) (sees.distinct distinct)⟩
  obtain ⟨settled, t, pod, electable⟩ := evaluateFailover_named (sees.distinct distinct) named
  refine ⟨settled.unclaimed, fun v member own started => ?_, fun v member own => ?_, ?_, fun commits => ?_⟩
  · obtain ⟨w, kept, host, observed, -⟩ := sees.complete v member own
    exact observed ▸ settled.observed w kept (host ▸ started)
  · obtain ⟨w, kept, -, -, -, receiver⟩ := sees.complete v member own
    exact receiver ▸ settled.quiet w kept
  · obtain ⟨v, member, own, same, lsn, ready, standby⟩ := sees.origin t electable.member
    refine ⟨v, member, same.symm.trans pod, fun u listed lineage polled => ?_, ?_⟩
    · obtain ⟨w, kept, -, observed, level, -⟩ := sees.complete u listed lineage
      exact level ▸ lsn ▸ electable.furthest w kept (observed ▸ polled)
    · by_cases commits : inputs.committed = ""
      · obtain ⟨fit, role⟩ := electable.candidate commits
        obtain ⟨rfl, placed⟩ := standby role
        exact .inr ⟨fit, role, own, fun latched => candidate_placed (placed latched) commits (own latched)
          (settled.unclaimed t electable.member) fit⟩
      · exact .inl (same.symm.trans (electable.sticky commits))
  · exact pod.symm.trans (electable.sticky commits)

def healthy (role : InstanceRole) (lsn id : Nat) : InstanceStatus :=
  { ready := true, role, walReceiveLsn := some lsn, systemId := id, timeline := 2 }

def primaryLost : List InstanceView :=
  [.poll "pg-0" "" none, .poll "pg-1" "10.0.0.1" (some (healthy .standby 40 7)),
    .poll "pg-2" "10.0.0.2" (some (healthy .standby 60 7)),
    .poll "pg-3" "10.0.0.3" (some (healthy .primary 90 8))]

def lostLineage : IdentityInputs := ⟨7, 2, "pg-0", "", false⟩

theorem elected_safe_primaryLost :
    (evaluateFailover (assessIdentity primaryLost lostLineage).kept "").targetPrimary ≠ "" ∧
    (∀ v ∈ primaryLost, SameLineage lostLineage v → v.host ≠ "" → v.observed = true) ∧
    ∀ other, primaryLost.Perm other →
      (evaluateFailover (assessIdentity other lostLineage).kept "").targetPrimary = "pg-2" := by
  have safe := @elected_safe primaryLost lostLineage (by decide +kernel) rfl
  have elects : (evaluateFailover (assessIdentity primaryLost lostLineage).kept "").targetPrimary = "pg-2" := by
    decide +kernel
  have named : (evaluateFailover (assessIdentity primaryLost lostLineage).kept "").targetPrimary ≠ "" := by
    rw [elects]
    decide
  exact ⟨named, (safe.1 named).2.1, fun other perm => (safe.2 other perm).symm ▸ elects⟩

end PgShard.Failover
