import PgShard.Failover.Election
import PgShard.Lib.Quote

/-! The aggregation of a poll into the status of a node, or of a shard that is not placed on one. -/

namespace PgShard.Failover

inductive Phase
  | provisioning
  | ready
  | failingOver
  | degraded
  deriving DecidableEq

/-- An instance in the status. The role is a label: `primary`, `replica` or none. -/
structure InstanceState where
  pod : String
  role : InstanceRole := .unspecified
  ready : Bool := false
  walWriteLSN : String := ""
  walReplayLSN : String := ""
  deriving DecidableEq

inductive ConditionStatus
  | true
  | false
  | unknown
  deriving DecidableEq

structure Condition where
  type : String
  status : ConditionStatus
  reason : String
  message : String
  observedGeneration : Int
  deriving DecidableEq

structure Status where
  conditions : List Condition := []
  currentPrimary : String := ""
  targetPrimary : String := ""
  decisionEpoch : Nat := 0
  timeline : Int := 0
  systemID : String := ""
  instances : List InstanceState := []
  phase : Phase := .provisioning
  deriving DecidableEq

structure Owner where
  name : String
  replicas : Int
  generation : Int
  deriving DecidableEq

/-- A pod as listed by its labels, and what its agent answers. -/
structure Pod where
  name : String
  podIP : String
  controlled : Bool
  answer : Option InstanceStatus
  deriving DecidableEq

structure Poll where
  pods : List Pod
  named : ∀ p ∈ pods, p.name ≠ ""
  distinct : (pods.map (·.name)).Nodup

def lsnString : Option Nat → String
  | none => ""
  | some lsn =>
    let hex n := String.ofList ((Nat.toDigits 16 n).map Char.toUpper)
    hex (lsn / 2 ^ 32) ++ "/" ++ hex (lsn % 2 ^ 32)

def Pod.view (p : Pod) : InstanceView :=
  .poll p.name p.podIP p.answer

def Pod.state (p : Pod) : InstanceState :=
  match if p.podIP = "" then none else p.answer with
  | none => { pod := p.name }
  | some status =>
    { pod := p.name, role := status.role, ready := status.ready, walWriteLSN := lsnString status.walWriteLsn,
      walReplayLSN := lsnString status.walReplayLsn }

namespace Poll

def polled (poll : Poll) : List Pod :=
  poll.pods.filter (·.controlled)

def views (poll : Poll) : List InstanceView :=
  poll.polled.map (·.view)

end Poll

/-! ## The derived primary and phase -/

def parseInt (s : List Char) : Option Int :=
  let (negative, digits) := match s with
    | '-' :: digits => (true, digits)
    | '+' :: digits => (false, digits)
    | digits => (false, digits)
  if digits.isEmpty then none
  else
    match parseUint digits with
    | .error _ => none
    | .ok n =>
      if negative then if n ≤ 2 ^ 31 then some (-n) else none
      else if n < 2 ^ 31 then some n else none

def ordinalOf (podName namePrefix : List Char) : Option Int :=
  if !namePrefix.isPrefixOf podName then none
  else
    let suffix := podName.drop namePrefix.length
    match parseInt suffix with
    | none => none
    | some n => if n < 0 || (toString n).toList != suffix then none else some n

structure Tally where
  currentPrimary : String := ""
  primaries : Nat := 0
  anyReady : Nat := 0
  desiredReady : List Int := []

def tallyInstance (replicas : Int) (namePrefix : String) (t : Tally) (s : InstanceState) : Tally :=
  let confirmed := s.ready && (s.role == .primary || s.role == .standby)
  let t := if !confirmed then t else
    { t with
      anyReady := t.anyReady + 1
      desiredReady := match ordinalOf s.pod.toList namePrefix.toList with
        | some ord => if ord < replicas then t.desiredReady.insert ord else t.desiredReady
        | none => t.desiredReady }
  if s.role == .primary then { t with currentPrimary := s.pod, primaries := t.primaries + 1 } else t

/-- `deriveNodeStatus`, and likewise `deriveShardStatus`. -/
def deriveStatus (instances : List InstanceState) (replicas : Int) (hadPrimary : Bool) (namePrefix : String) :
    String × Phase :=
  let t := instances.foldl (tallyInstance replicas namePrefix) {}
  if 1 < t.primaries then ("", .degraded)
  else if t.desiredReady.length == replicas && t.currentPrimary != "" then (t.currentPrimary, .ready)
  else if t.anyReady == 0 && !hadPrimary then (t.currentPrimary, .provisioning)
  else (t.currentPrimary, .degraded)

/-! ## The condition -/

def ParseError.text (s : String) : ParseError → String
  | .invalid => "strconv.ParseUint: parsing " ++ Quote.quoted s ++ ": invalid syntax"
  | .range => "strconv.ParseUint: parsing " ++ Quote.quoted s ++ ": value out of range"
  | .zero => "latched system id is zero"

def identityConsistentCondition (a : IdentityAssessment) (latched : Bool) (parseErr : Option String)
    (generation : Int) : Option Condition :=
  let condition status reason message : Option Condition :=
    some ⟨"IdentityConsistent", status, reason, message, generation⟩
  match parseErr with
  | some error => condition .false "MalformedIdentity"
      ("latched system id is not parseable; election disabled: " ++ error)
  | none =>
    if a.conflict then
      condition .false "IdentityConflict"
        ("conflicting system ids before any identity was latched; election and primary publication " ++
          "disabled until they agree: " ++ ", ".intercalate a.fenced)
    else if latched && !a.fenced.isEmpty then
      condition .false "ForeignInstance"
        ("instances fenced from election or recognition: " ++ ", ".intercalate a.fenced)
    else if latched && a.anyStartedUnobserved then
      condition .unknown "IncompleteObservation"
        "a started instance could not be polled; identity attestation is incomplete this cycle"
    else if latched then
      condition .true "Latched" "all observed instances match the latched system identity"
    else none

def setStatusCondition (conditions : List Condition) (c : Condition) : List Condition :=
  if conditions.any (·.type == c.type) then conditions.map fun old => if old.type == c.type then c else old
  else conditions ++ [c]

/-! ## The handshake -/

structure Promote where
  host : String
  target : String
  epoch : Nat
  deriving DecidableEq

def hostByPod (views : List InstanceView) (pod : String) : String :=
  ((views.find? (·.pod == pod)).map (·.host)).getD ""

def reconcileFailover (status : Status) (views : List InstanceView) : Status × Option Promote :=
  let decision := evaluateFailover views status.targetPrimary
  if !decision.warranted || decision.wait then
    if !decision.warranted && status.currentPrimary != "" && status.targetPrimary != "" then
      ({ status with targetPrimary := "" }, none)
    else (status, none)
  else if status.targetPrimary ≠ decision.targetPrimary then
    ({ status with
        decisionEpoch := status.decisionEpoch + 1
        targetPrimary := decision.targetPrimary
        phase := .failingOver }, none)
  else
    let host := hostByPod views decision.targetPrimary
    ({ status with phase := .failingOver },
      if host = "" then none else some ⟨host, decision.targetPrimary, status.decisionEpoch⟩)

/-! ## The aggregation -/

structure Aggregation where
  status : Status
  /-- The call the aggregation makes before it writes the status. -/
  promote : Option Promote
  readyReplicas : List String
  fenced : List String
  deriving DecidableEq

def assess (poll : Poll) (before : Status) : Latch × Option ParseError × IdentityAssessment :=
  let (latch, parseErr) := latchIdentity poll.views before.currentPrimary before.targetPrimary before.systemID
    before.timeline
  (latch, parseErr, assessIdentity poll.views
    { systemID := latch.expectedID, timeline := latch.timeline, current := before.currentPrimary,
      committed := before.targetPrimary, malformed := parseErr.isSome })

def Pod.believed (p : Pod) (rogue : Bool) : InstanceState :=
  if rogue then { p.state with role := .unspecified } else p.state

def believed (poll : Poll) (a : IdentityAssessment) : List InstanceState :=
  poll.polled.map fun p => p.believed (a.rogue p.name)

def assessedStatus (owner : Owner) (poll : Poll) (before : Status) : Status :=
  let (latch, parseErr, a) := assess poll before
  let instances := believed poll a
  let (derived, phase) := deriveStatus instances owner.replicas (before.currentPrimary != "") (owner.name ++ "-")
  { before with
    systemID := latch.systemID
    timeline := latch.timeline
    instances
    currentPrimary := if a.suppressPrimary then "" else derived
    phase := if a.suppressPrimary || a.blocked then .degraded else phase
    conditions := match identityConsistentCondition a (latch.systemID != "")
        (parseErr.map (·.text before.systemID)) owner.generation with
      | some c => setStatusCondition before.conditions c
      | none => before.conditions }

/-- `aggregateStatus` up to the write of the status. -/
def aggregateStatus (owner : Owner) (poll : Poll) (before : Status) : Aggregation :=
  let (_, parseErr, a) := assess poll before
  let assessed := assessedStatus owner poll before
  let (status, promote) :=
    if parseErr.isNone && !a.conflict then reconcileFailover assessed a.kept else (assessed, none)
  { status
    promote
    readyReplicas := (assessed.instances.filter fun s =>
      s.ready && s.role == .standby && s.pod != status.currentPrimary).map (·.pod)
    fenced := a.unrecognized }

/-- What a handshake makes of a status: nothing, the end of a failover, a new
election, or the call that drives an election already in the status. -/
inductive Handshake (status : Status) : Status → Option Promote → Prop
  | rests : Handshake status status none
  | finishes : Handshake status { status with targetPrimary := "" } none
  | elects (target : String) (named : target ≠ "") (new : status.targetPrimary ≠ target) :
      Handshake status { status with decisionEpoch := status.decisionEpoch + 1, targetPrimary := target, phase := .failingOver } none
  | drives (committed : status.targetPrimary ≠ "") (call : Option Promote)
      (driven : ∀ p ∈ call, p.target = status.targetPrimary ∧ p.epoch = status.decisionEpoch) :
      Handshake status { status with phase := .failingOver } call

theorem reconcileFailover_handshake {status : Status} {views : List InstanceView} (named : ∀ v ∈ views, v.pod ≠ "") :
    Handshake status (reconcileFailover status views).1 (reconcileFailover status views).2 := by
  simp only [reconcileFailover]
  split
  · split
    · exact .finishes
    · exact .rests
  · rename_i acts
    simp only [Bool.or_eq_true, Bool.not_eq_true', not_or, Bool.not_eq_false, Bool.not_eq_true] at acts
    have target : (evaluateFailover views status.targetPrimary).targetPrimary ≠ "" := by
      rcases evaluateFailover_acts acts.1 acts.2 with ⟨commits, same⟩ | ⟨t, member, same⟩
      · rwa [same]
      · exact same ▸ named t member
    split
    · rename_i new
      exact .elects _ target new
    · rename_i same
      rw [ne_eq, not_not] at same
      refine .drives (same ▸ target) _ fun p call => ?_
      split at call
      · cases call
      · obtain rfl := Option.some.inj call
        exact ⟨same.symm, rfl⟩

/-! ## What is published -/

variable {p : Pod} {replicas : Int} {namePrefix : String} {disagree : Bool}

section Published

variable {owner : Owner} {poll : Poll} {before status : Status} {id : Nat} {v w : InstanceView} {l : Latch}
  {views : List InstanceView} {instances : List InstanceState} {current committed : String}

theorem Poll.mem_views : v ∈ poll.views ↔ ∃ p ∈ poll.polled, p.view = v := by
  simp [Poll.views]

theorem Pod.view_pod : p.view.pod = p.name := by
  unfold Pod.view InstanceView.poll
  split <;> rfl

theorem Poll.views_named (member : v ∈ poll.views) : v.pod ≠ "" := by
  obtain ⟨p, listed, rfl⟩ := Poll.mem_views.mp member
  rw [Pod.view_pod]
  exact poll.named p (List.mem_of_mem_filter listed)

theorem Pod.state_pod : p.state.pod = p.name := by
  unfold Pod.state
  split <;> rfl

theorem Pod.state_primary : (p.state.role == .primary) = p.view.isPrimary := by
  unfold Pod.state Pod.view InstanceView.poll
  cases (if p.podIP = "" then none else p.answer) with
  | none | some status => rfl

theorem Pod.believed_pod {rogue : Bool} : (p.believed rogue).pod = p.name := by
  cases rogue <;> exact Pod.state_pod

theorem Pod.believed_primary {rogue : Bool} :
    ((p.believed rogue).role == .primary) = (p.view.isPrimary && !rogue) := by
  cases rogue
  · simp [Pod.believed, Pod.state_primary]
  · simp [Pod.believed]

theorem Poll.views_distinct : (poll.views.map (·.pod)).Nodup := by
  have names : poll.views.map (·.pod) = poll.polled.map (·.name) := by
    simp [Poll.views, Pod.view_pod]
  rw [names]
  exact poll.distinct.sublist (List.filter_sublist.map _)

theorem Poll.views_inj (first : v ∈ poll.views) (second : w ∈ poll.views) (same : v.pod = w.pod) : v = w :=
  List.inj_on_of_nodup_map Poll.views_distinct first second same

def primariesOf (instances : List InstanceState) : List InstanceState :=
  instances.filter (·.role == .primary)

theorem tallyInstance_primary {t : Tally} {s : InstanceState} :
    (tallyInstance replicas namePrefix t s).primaries = t.primaries + (if s.role == .primary then 1 else 0) ∧
    (tallyInstance replicas namePrefix t s).currentPrimary = if s.role == .primary then s.pod else t.currentPrimary := by
  simp only [tallyInstance]
  split <;> split <;> simp

theorem tallyInstances_primary {t : Tally} :
    (instances.foldl (tallyInstance replicas namePrefix) t).primaries =
      t.primaries + (primariesOf instances).length ∧
    (instances.foldl (tallyInstance replicas namePrefix) t).currentPrimary =
      ((primariesOf instances).getLast?.map (·.pod)).getD t.currentPrimary := by
  induction instances generalizing t with
  | nil => simp [primariesOf]
  | cons s rest ih =>
    obtain ⟨count, last⟩ := @ih (tallyInstance replicas namePrefix t s)
    rw [List.foldl_cons, count, last, tallyInstance_primary.1, tallyInstance_primary.2]
    by_cases primary : (s.role == .primary) = true
    · simp only [primariesOf, List.filter_cons, primary, if_true, List.length_cons, List.getLast?_cons]
      exact ⟨by omega, by cases (rest.filter (·.role == .primary)).getLast? <;> rfl⟩
    · simp [primariesOf, primary]

def sole : List String → String
  | [name] => name
  | _ => ""

theorem deriveStatus_primary {had : Bool} :
    (deriveStatus instances replicas had namePrefix).1 = sole ((primariesOf instances).map (·.pod)) := by
  obtain ⟨count, last⟩ := @tallyInstances_primary replicas namePrefix instances {}
  have derived : (deriveStatus instances replicas had namePrefix).1 =
      if 1 < (instances.foldl (tallyInstance replicas namePrefix) {}).primaries then ""
      else (instances.foldl (tallyInstance replicas namePrefix) {}).currentPrimary := by
    unfold deriveStatus
    split
    · rw [if_pos (by assumption)]
    · rw [if_neg (by assumption)]
      split
      · rfl
      · split <;> rfl
  rw [derived, count, last]
  rcases primariesOf instances with - | ⟨s, - | ⟨t, rest⟩⟩
  · rfl
  · rfl
  · simp [sole]

theorem believed_roles {a : IdentityAssessment} {strips : InstanceView → Bool}
    (rogue : ∀ p ∈ poll.polled, a.rogue p.name = strips p.view) :
    (primariesOf (believed poll a)).map (·.pod) = (poll.views.filter fun v => v.isPrimary && !strips v).map (·.pod) := by
  have roles : believed poll a = poll.polled.map fun p => p.believed (strips p.view) :=
    List.map_congr_left fun p member => by rw [rogue p member]
  rw [roles]
  simp [Poll.views, primariesOf, List.filter_map, Function.comp_def, Pod.believed_primary, Pod.believed_pod,
    Pod.view_pod]

theorem assessIdentity_rogue_view {inputs : IdentityInputs} (parsed : inputs.malformed = false)
    (latched : inputs.systemID ≠ 0) (member : v ∈ poll.views) :
    (assessIdentity poll.views inputs).rogue v.pod = inputs.strips v := by
  rw [Bool.eq_iff_iff, assessIdentity_rogue parsed latched]
  constructor
  · rintro ⟨w, other, strips, same⟩
    rwa [Poll.views_inj member other same.symm]
  · exact fun strips => ⟨v, member, strips, rfl⟩

theorem believed_primaries {inputs : IdentityInputs} (parsed : inputs.malformed = false)
    (latched : inputs.systemID ≠ 0) :
    (primariesOf (believed poll (assessIdentity poll.views inputs))).map (·.pod) =
      (poll.views.filter fun v => v.isPrimary && !inputs.strips v).map (·.pod) :=
  believed_roles fun p member => by
    rw [← @Pod.view_pod p, assessIdentity_rogue_view parsed latched (Poll.mem_views.mpr ⟨p, member, rfl⟩)]

/-! ## The latch of a latched identity -/

def advances (id : Nat) (current committed : String) (timeline : Int) (v : InstanceView) : Bool :=
  v.isPrimary && v.pod != "" && (v.pod == current || v.pod == committed) && v.systemID == id &&
    timeline < v.timeline && (timeline == 0 || v.pod == committed)

def Latch.advance (l : Latch) (current committed : String) (v : InstanceView) : Latch :=
  if advances l.expectedID current committed l.timeline v then { l with timeline := v.timeline } else l

theorem latchView_latched (latched : l.expectedID ≠ 0) :
    latchView disagree true current committed l v = l.advance current committed v := by
  have unset : (l.expectedID == 0) = false := beq_eq_false_iff_ne.mpr latched
  have observed : v.isPrimary = true → v.observed = true := by
    intro primary
    by_contra unobserved
    have := (v.unpolled (by simpa using unobserved)).2.1
    simp [primary] at this
  simp only [latchView, Latch.advance, advances, unset, Bool.true_and, Bool.false_and, Bool.false_eq_true, if_false]
  grind

theorem Latch.advance_kept : (l.advance current committed v).systemID = l.systemID ∧
    (l.advance current committed v).expectedID = l.expectedID := by
  unfold Latch.advance
  split <;> exact ⟨rfl, rfl⟩

theorem Latch.advance_idem : (l.advance current committed v).advance current committed v =
    l.advance current committed v := by
  by_cases advancing : advances l.expectedID current committed l.timeline v = true
  · have level : advances l.expectedID current committed v.timeline v = false := by simp [advances]
    simp [Latch.advance, advancing, level]
  · simp [Latch.advance, advancing]

theorem latchViews_latched (latched : l.expectedID ≠ 0) :
    (views.foldl (latchView disagree true current committed) l).systemID = l.systemID ∧
    (views.foldl (latchView disagree true current committed) l).expectedID = l.expectedID := by
  induction views generalizing l with
  | nil => exact ⟨rfl, rfl⟩
  | cons v rest ih =>
    rw [List.foldl_cons, latchView_latched latched]
    obtain ⟨system, expected⟩ := @Latch.advance_kept v l current committed
    obtain ⟨system', expected'⟩ := ih (expected.symm ▸ latched)
    exact ⟨system'.trans system, expected'.trans expected⟩

theorem latchViews_sole (latched : l.expectedID ≠ 0)
    (only : ∀ w ∈ views, w.isPrimary = true → w.systemID = l.expectedID → w = v) :
    views.foldl (latchView disagree true current committed) l =
      if v ∈ views then l.advance current committed v else l := by
  induction views generalizing l with
  | nil => rfl
  | cons w rest ih =>
    obtain ⟨here, later⟩ := List.forall_mem_cons.mp only
    have kept := (@Latch.advance_kept w l current committed).2
    rw [List.foldl_cons, latchView_latched latched, ih (kept.symm ▸ latched) (kept.symm ▸ later)]
    by_cases same : v = w
    · subst same
      simp [Latch.advance_idem]
    · have still : l.advance current committed w = l := by
        unfold Latch.advance
        rw [if_neg]
        intro advancing
        simp only [advances, Bool.and_eq_true, beq_iff_eq] at advancing
        exact same (here advancing.1.1.1.1.1 advancing.1.1.2).symm
      simp [still, same]

def identityOf (poll : Poll) (before : Status) : IdentityInputs where
  systemID := (assess poll before).1.expectedID
  timeline := (assess poll before).1.timeline
  current := before.currentPrimary
  committed := before.targetPrimary
  malformed := (assess poll before).2.1.isSome

theorem assess_identityOf : (assess poll before).2.2 = assessIdentity poll.views (identityOf poll before) :=
  rfl

theorem aggregateStatus_assessed : (aggregateStatus owner poll before).status =
    if !(identityOf poll before).malformed && !(assessIdentity poll.views (identityOf poll before)).conflict then
      (reconcileFailover (assessedStatus owner poll before) (assessIdentity poll.views (identityOf poll before)).kept).1
    else assessedStatus owner poll before := by
  have malformed : (!(identityOf poll before).malformed) = (assess poll before).2.1.isNone := by
    simp [identityOf]
  rw [malformed, ← assess_identityOf]
  simp only [aggregateStatus]
  split <;> rfl

theorem reconcileFailover_published : (reconcileFailover status views).1.currentPrimary = status.currentPrimary ∧
    (reconcileFailover status views).1.timeline = status.timeline ∧
    (reconcileFailover status views).1.systemID = status.systemID ∧
    (reconcileFailover status views).1.instances = status.instances := by
  simp only [reconcileFailover]
  split
  · split <;> exact ⟨rfl, rfl, rfl, rfl⟩
  · split <;> exact ⟨rfl, rfl, rfl, rfl⟩

theorem aggregateStatus_published :
    (aggregateStatus owner poll before).status.currentPrimary = (assessedStatus owner poll before).currentPrimary ∧
    (aggregateStatus owner poll before).status.timeline = (identityOf poll before).timeline ∧
    (aggregateStatus owner poll before).status.instances =
      believed poll (assessIdentity poll.views (identityOf poll before)) := by
  rw [aggregateStatus_assessed]
  split
  · exact ⟨reconcileFailover_published.1, reconcileFailover_published.2.1, reconcileFailover_published.2.2.2⟩
  · exact ⟨rfl, rfl, rfl⟩

theorem assessedStatus_currentPrimary : (assessedStatus owner poll before).currentPrimary =
    if (assessIdentity poll.views (identityOf poll before)).suppressPrimary then ""
    else sole ((primariesOf (believed poll (assessIdentity poll.views (identityOf poll before)))).map (·.pod)) := by
  have derived : (deriveStatus (believed poll (assessIdentity poll.views (identityOf poll before))) owner.replicas
      (before.currentPrimary != "") (owner.name ++ "-")).1 = _ := deriveStatus_primary
  rw [← derived]
  rfl

theorem sole_eq {names : List String} {name : String} (named : name ≠ "") : sole names = name ↔ names = [name] := by
  unfold sole
  split
  · simp
  · rename_i several
    exact ⟨fun empty => absurd empty.symm named, fun single => absurd single (several name)⟩

theorem sole_views {claims : InstanceView → Bool} (member : v ∈ poll.views) :
    sole ((poll.views.filter claims).map (·.pod)) = v.pod ↔ ∀ w ∈ poll.views, claims w = true ↔ w = v := by
  rw [sole_eq (Poll.views_named member)]
  constructor
  · intro chosen w listed
    obtain ⟨u, only, same⟩ := List.map_eq_singleton_iff.mp chosen
    have claimant : ∀ w, w ∈ poll.views ∧ claims w = true ↔ w = u := by
      intro w
      rw [← List.mem_filter, only, List.mem_singleton]
    obtain rfl := Poll.views_inj ((claimant u).mpr rfl).1 member same
    exact ⟨fun claim => (claimant w).mp ⟨listed, claim⟩, fun own => ((claimant w).mpr own).2⟩
  · intro only
    have distinct : (poll.views.filter claims).Nodup := (List.Nodup.of_map _ Poll.views_distinct).filter _
    have single : poll.views.filter claims = [v] := by
      refine List.perm_singleton.mp ((List.perm_ext_iff_of_nodup distinct (List.nodup_singleton v)).mpr fun w => ?_)
      rw [List.mem_filter, List.mem_singleton]
      exact ⟨fun ⟨listed, claim⟩ => (only w listed).mp claim, fun own => own ▸ ⟨member, (only v member).mpr rfl⟩⟩
    rw [single, List.map_singleton]

section Known

variable (parsed : (identityOf poll before).malformed = false) (known : (identityOf poll before).systemID ≠ 0)
include parsed known

theorem currentPrimary_known : (aggregateStatus owner poll before).status.currentPrimary =
    if poll.views.any (identityOf poll before).disputes then ""
    else sole ((poll.views.filter fun v => v.isPrimary && !(identityOf poll before).strips v).map (·.pod)) := by
  rw [aggregateStatus_published.1, assessedStatus_currentPrimary, assessIdentity_suppress parsed known,
    believed_primaries parsed known]

theorem published_iff (member : v ∈ poll.views) :
    (aggregateStatus owner poll before).status.currentPrimary = v.pod ↔
      v.isPrimary = true ∧ (identityOf poll before).foreign v = false ∧ (identityOf poll before).disputes v = false ∧
      ∀ w ∈ poll.views, w.isPrimary = true → (identityOf poll before).foreign w = false → w = v := by
  have published := @currentPrimary_known owner poll before parsed known
  generalize identityOf poll before = inputs at published ⊢
  have believes : ∀ w, (w.isPrimary && !inputs.strips w) = true ↔
      w.isPrimary = true ∧ inputs.foreign w = false ∧ inputs.disputes w = false := by
    intro w
    unfold IdentityInputs.strips IdentityInputs.blocks
    cases w.isPrimary <;> cases inputs.foreign w <;> cases inputs.disputes w <;> simp
  rw [published]
  constructor
  · intro chosen
    split at chosen
    · exact absurd chosen.symm (Poll.views_named member)
    rename_i undisputed
    rw [sole_views member] at chosen
    obtain ⟨primary, own, calm⟩ := (believes v).mp ((chosen v member).mpr rfl)
    refine ⟨primary, own, calm, fun w other claim lineage =>
      (chosen w other).mp ((believes w).mpr ⟨claim, lineage, ?_⟩)⟩
    simp only [List.any_eq_true, not_exists, not_and, Bool.not_eq_true] at undisputed
    exact undisputed w other
  · rintro ⟨primary, own, calm, only⟩
    have undisputed : poll.views.any inputs.disputes = false := by
      refine Bool.eq_false_iff.mpr fun disputed => ?_
      obtain ⟨w, other, disputes⟩ := List.any_eq_true.mp disputed
      have claims : w.isPrimary = true ∧ inputs.foreign w = false := by
        unfold IdentityInputs.disputes at disputes
        cases primary : w.isPrimary <;> cases foreign : inputs.foreign w <;> simp_all
      rw [only w other claims.1 claims.2, calm] at disputes
      cases disputes
    rw [undisputed, if_neg Bool.false_ne_true, sole_views member]
    intro w other
    rw [believes]
    exact ⟨fun claims => only w other claims.1 claims.2.1, fun same => same ▸ ⟨primary, own, calm⟩⟩

end Known

def latchOf (poll : Poll) (before : Status) (id : Nat) : Latch :=
  poll.views.foldl (latchView (disagreement poll.views) true before.currentPrimary before.targetPrimary)
    ⟨before.systemID, id, before.timeline⟩

def lineageOf (poll : Poll) (before : Status) (id : Nat) : IdentityInputs :=
  { systemID := id, timeline := (latchOf poll before id).timeline, current := before.currentPrimary,
    committed := before.targetPrimary }

theorem identityOf_latched (latched : parseLatchedID before.systemID = .ok id) (nonzero : id ≠ 0) :
    identityOf poll before = lineageOf poll before id := by
  have kept : (latchOf poll before id).expectedID = id := (latchViews_latched nonzero).2
  simp only [identityOf, assess, latchIdentity, latched]
  rw [← latchOf, kept]
  rfl

/-- The committed target's pod is the only one that claims to be primary of the
lineage, and it is not the promoted data: it reports no system id, or a timeline
behind the recorded one. -/
def ReturnsStale (poll : Poll) (before : Status) (id : Nat) : Prop :=
  ∃ v ∈ poll.views, v.pod = before.targetPrimary ∧ v.isPrimary = true ∧
    (v.systemID = 0 ∨ v.systemID = id ∧ v.timeline < before.timeline) ∧
    ∀ w ∈ poll.views, w.isPrimary = true → w.systemID = 0 ∨ w.systemID = id → w = v

theorem lineageOf_foreign : (lineageOf poll before id).foreign v = false ↔ v.systemID = 0 ∨ v.systemID = id := by
  simp only [IdentityInputs.foreign, lineageOf, Bool.and_eq_false_iff, bne_eq_false_iff_eq]

theorem published_mem (latched : parseLatchedID before.systemID = .ok id) (nonzero : id ≠ 0)
    (published : (aggregateStatus owner poll before).status.currentPrimary ≠ "") :
    ∃ v ∈ poll.views, (aggregateStatus owner poll before).status.currentPrimary = v.pod := by
  have lineage := @identityOf_latched poll before id latched nonzero
  rw [currentPrimary_known (by rw [lineage]; rfl) (by rw [lineage]; exact nonzero)] at published ⊢
  split at published
  · exact absurd rfl published
  rename_i undisputed
  rw [if_neg undisputed]
  have single := (sole_eq published).mp rfl
  obtain ⟨v, only, same⟩ := List.map_eq_singleton_iff.mp single
  exact ⟨v, List.mem_of_mem_filter (only ▸ List.mem_singleton_self v), same.symm⟩

theorem recorded_sole (nonzero : id ≠ 0) (member : v ∈ poll.views)
    (only : ∀ w ∈ poll.views, w.isPrimary = true → w.systemID = 0 ∨ w.systemID = id → w = v) :
    (lineageOf poll before id).timeline =
      if advances id before.currentPrimary before.targetPrimary before.timeline v then v.timeline
      else before.timeline := by
  have latch : latchOf poll before id = (⟨before.systemID, id, before.timeline⟩ : Latch).advance
      before.currentPrimary before.targetPrimary v := by
    refine (latchViews_sole nonzero fun w other claims same => only w other claims (.inr same)).trans ?_
    exact if_pos member
  rw [lineageOf, latch, Latch.advance]
  split <;> rfl

/-- The primary that a poll of a latched lineage publishes has reported the latched id
on exactly the recorded timeline, unless the committed target's pod has returned with
other data. -/
theorem published_vouched (latched : parseLatchedID before.systemID = .ok id) (nonzero : id ≠ 0) :
    ((aggregateStatus owner poll before).status.currentPrimary ≠ "" →
      ∃ v ∈ poll.views, v.pod = (aggregateStatus owner poll before).status.currentPrimary ∧ v.systemID = id ∧
        v.timeline = (aggregateStatus owner poll before).status.timeline) ↔ ¬ReturnsStale poll before id := by
  have lineage := @identityOf_latched poll before id latched nonzero
  have iff := fun {v} => @published_iff owner poll before v (by rw [lineage]; rfl) (by rw [lineage]; exact nonzero)
  rw [lineage] at iff
  rw [aggregateStatus_published.2.1, lineage]
  constructor
  · rintro vouched ⟨v, member, pod, primary, stale, only⟩
    have own : v.systemID = 0 ∨ v.systemID = id := stale.imp_right (·.1)
    have calm : (lineageOf poll before id).disputes v = false := by
      have named : before.targetPrimary ≠ "" := pod ▸ Poll.views_named member
      simp [IdentityInputs.disputes, IdentityInputs.isCommitted, lineageOf, pod, named]
    have published : (aggregateStatus owner poll before).status.currentPrimary = v.pod :=
      (iff member).mpr ⟨primary, lineageOf_foreign.mpr own, calm, fun w other claims same =>
        only w other claims (lineageOf_foreign.mp same)⟩
    obtain ⟨u, listed, same, reported, level⟩ := vouched (published ▸ Poll.views_named member)
    obtain rfl := Poll.views_inj listed member (same.trans published)
    rcases stale with absent | ⟨-, behind⟩
    · exact nonzero (reported.symm.trans absent)
    · rw [recorded_sole nonzero member only, if_neg (by simp [advances, behind.le])] at level
      omega
  · intro placed published
    obtain ⟨v, member, pod⟩ := published_mem latched nonzero published
    obtain ⟨primary, own, calm, only⟩ := (iff member).mp pod
    refine ⟨v, member, pod.symm, ?_⟩
    replace only : ∀ w ∈ poll.views, w.isPrimary = true → w.systemID = 0 ∨ w.systemID = id → w = v :=
      fun w other claims same => only w other claims (lineageOf_foreign.mpr same)
    cases committed : (lineageOf poll before id).isCommitted v with
    | false =>
      simp [IdentityInputs.disputes, committed, own, primary, IdentityInputs.vouched] at calm
      exact ⟨calm.1.1, calm.2⟩
    | true =>
      have target : v.pod = before.targetPrimary := by
        simp [IdentityInputs.isCommitted, lineageOf] at committed
        exact committed.1
      have fresh : v.systemID = id ∧ before.timeline ≤ v.timeline := by
        by_contra stale
        refine placed ⟨v, member, target, primary, ?_, only⟩
        rcases lineageOf_foreign.mp own with absent | same
        · exact .inl absent
        · exact .inr ⟨same, not_le.mp fun level => stale ⟨same, level⟩⟩
      refine ⟨fresh.1, ?_⟩
      rw [recorded_sole nonzero member only]
      split
      · rfl
      · rename_i still
        have named : before.targetPrimary ≠ "" := target ▸ Poll.views_named member
        simp [advances, primary, named, target, fresh.1] at still
        omega

def committedStatus : Status :=
  { targetPrimary := "pg-1", decisionEpoch := 1, timeline := 2, systemID := "7", phase := .failingOver }

def promotedPoll (id timeline : Nat) : Poll where
  pods := [⟨"pg-1", "10.0.0.1", true, some { ready := true, role := .primary, systemId := id, timeline }⟩,
    ⟨"pg-2", "10.0.0.2", true, some (healthy .standby 60 7)⟩]
  named := by simp
  distinct := by simp

theorem published_vouched_promoted :
    (aggregateStatus ⟨"pg", 2, 1⟩ (promotedPoll 7 3) committedStatus).status.currentPrimary = "pg-1" ∧
    ∃ v ∈ (promotedPoll 7 3).views, v.pod = "pg-1" ∧ v.systemID = 7 ∧
      v.timeline = (aggregateStatus ⟨"pg", 2, 1⟩ (promotedPoll 7 3) committedStatus).status.timeline := by
  have published : (aggregateStatus ⟨"pg", 2, 1⟩ (promotedPoll 7 3) committedStatus).status.currentPrimary = "pg-1" := by
    decide +kernel
  have placed : ¬ReturnsStale (promotedPoll 7 3) committedStatus 7 := by
    unfold ReturnsStale
    decide +kernel
  have latched : parseLatchedID committedStatus.systemID = .ok 7 := by decide +kernel
  obtain ⟨v, member, pod, reported⟩ := (@published_vouched ⟨"pg", 2, 1⟩ _ _ _ latched (by decide)).mpr placed
    (by rw [published]; decide)
  exact ⟨published, v, member, pod.trans published, reported⟩

/-- The committed target's pod returns on an old copy of the data, or reports no
system id, and is published. -/
theorem stale_target_published :
    parseLatchedID committedStatus.systemID = .ok 7 ∧
    (aggregateStatus ⟨"pg", 2, 1⟩ (promotedPoll 7 1) committedStatus).status.currentPrimary = "pg-1" ∧
    (∀ v ∈ (promotedPoll 7 1).views, v.pod = "pg-1" →
      v.timeline < (aggregateStatus ⟨"pg", 2, 1⟩ (promotedPoll 7 1) committedStatus).status.timeline) ∧
    (aggregateStatus ⟨"pg", 2, 1⟩ (promotedPoll 0 0) committedStatus).status.currentPrimary = "pg-1" ∧
    ∀ v ∈ (promotedPoll 0 0).views, v.pod = "pg-1" → v.systemID = 0 := by
  decide +kernel

end Published

end PgShard.Failover
