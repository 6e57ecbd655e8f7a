import Mathlib

/-! The identity of a node's instances: the latch of the data lineage, and the
assessment of a poll's views against it. -/

namespace PgShard.Failover

inductive InstanceRole
  | unspecified
  | primary
  | standby
  deriving DecidableEq

structure InstanceStatus where
  ready : Bool := false
  role : InstanceRole := .unspecified
  walReceiveLsn : Option Nat := none
  walReceiverActive : Bool := false
  systemId : Nat := 0
  timeline : Nat := 0
  walWriteLsn : Option Nat := none
  walReplayLsn : Option Nat := none
  deriving DecidableEq

/-- One instance in a poll. What was not polled is unknown, and says nothing. -/
structure InstanceView where
  pod : String
  host : String
  ready : Bool
  isPrimary : Bool
  isStandby : Bool
  receivedLSN : Nat
  walReceiver : Bool
  observed : Bool
  systemID : Nat
  timeline : Int
  unpolled : observed = false → ready = false ∧ isPrimary = false ∧ isStandby = false ∧ receivedLSN = 0 ∧
    walReceiver = false ∧ systemID = 0 ∧ timeline = 0
  deriving DecidableEq

def lsnValue (lsn : Option Nat) : Nat :=
  lsn.getD 0

def int32 (n : Nat) : Int :=
  (n : Int).bmod (2 ^ 32)

/-- The view of a pod, polled if it has an address and its agent answers. -/
def InstanceView.poll (pod host : String) (answer : Option InstanceStatus) : InstanceView :=
  match if host = "" then none else answer with
  | none => ⟨pod, host, false, false, false, 0, false, false, 0, 0, fun _ => ⟨rfl, rfl, rfl, rfl, rfl, rfl, rfl⟩⟩
  | some status => ⟨pod, host, status.ready, status.role == .primary, status.role == .standby,
      lsnValue status.walReceiveLsn, status.walReceiverActive, true, status.systemId, int32 status.timeline, nofun⟩

def InstanceView.stripped (v : InstanceView) : InstanceView :=
  { v with
    isPrimary := false
    isStandby := false
    unpolled := fun unobserved =>
      let ⟨ready, _, _, rest⟩ := v.unpolled unobserved
      ⟨ready, rfl, rfl, rest⟩ }

def InstanceView.unknown (v : InstanceView) : Bool :=
  v.observed && v.systemID == 0

/-! ## The latch -/

inductive ParseError
  | invalid
  | range
  | zero
  deriving DecidableEq

def parseUint (digits : List Char) : Except ParseError Nat :=
  digits.foldlM (fun n c =>
    if !c.isDigit then .error .invalid
    else
      let n := n * 10 + (c.toNat - '0'.toNat)
      if 2 ^ 64 ≤ n then .error .range else .ok n) 0

/-- `parseLatchedID`: nothing latched is 0, and no PostgreSQL instance reports 0. -/
def parseLatchedID (s : String) : Except ParseError Nat :=
  if s = "" then .ok 0
  else
    match parseUint s.toList with
    | .error e => .error e
    | .ok id => if id = 0 then .error .zero else .ok id

/-- Observed instances report more than one system id. -/
def disagreement (views : List InstanceView) : Bool :=
  1 < ((views.filter fun v => v.observed && v.systemID != 0).map (·.systemID)).dedup.length

theorem reported_agree {views : List InstanceView} {v w : InstanceView} (agree : disagreement views = false)
    (first : v ∈ views) (second : w ∈ views) (reports : v.observed = true ∧ v.systemID ≠ 0)
    (reports' : w.observed = true ∧ w.systemID ≠ 0) : v.systemID = w.systemID := by
  have reported : ∀ {u}, u ∈ views → u.observed = true ∧ u.systemID ≠ 0 →
      u.systemID ∈ ((views.filter fun v => v.observed && v.systemID != 0).map (·.systemID)).dedup := by
    intro u member reports
    exact List.mem_dedup.mpr (List.mem_map_of_mem (List.mem_filter.mpr ⟨member, by simp [reports.1, reports.2]⟩))
  have one : ((views.filter fun v => v.observed && v.systemID != 0).map (·.systemID)).dedup.length ≤ 1 := by
    simpa [disagreement] using agree
  obtain ⟨i, here, same⟩ := List.getElem_of_mem (reported first reports)
  obtain ⟨j, there, same'⟩ := List.getElem_of_mem (reported second reports')
  obtain rfl : i = j := by omega
  exact same.symm.trans same'

structure Latch where
  systemID : String
  expectedID : Nat
  timeline : Int
  deriving DecidableEq

def latchView (disagree parsed : Bool) (current committed : String) (l : Latch) (v : InstanceView) : Latch :=
  let trusted := v.pod != "" && (v.pod == current || v.pod == committed)
  if !v.isPrimary || !v.observed || !trusted || v.systemID == 0 then l
  else if parsed && l.expectedID == 0 && disagree then l
  else
    let l := if parsed && l.expectedID == 0 then { l with systemID := toString v.systemID, expectedID := v.systemID } else l
    if v.systemID != l.expectedID || v.timeline ≤ l.timeline then l
    else if l.timeline == 0 || v.pod == committed then { l with timeline := v.timeline }
    else l

def latchIdentity (views : List InstanceView) (current committed latched : String) (timeline : Int) :
    Latch × Option ParseError :=
  let disagree := disagreement views
  match parseLatchedID latched with
  | .ok id => (views.foldl (latchView disagree true current committed) ⟨latched, id, timeline⟩, none)
  | .error e => (views.foldl (latchView disagree false current committed) ⟨latched, 0, timeline⟩, some e)

/-! ## The assessment -/

/-- `systemID` is 0 and `timeline` is 0 while they are not known. -/
structure IdentityInputs where
  systemID : Nat
  timeline : Int
  current : String := ""
  committed : String
  malformed : Bool := false
  deriving DecidableEq

structure IdentityAssessment where
  kept : List InstanceView := []
  fenced : List String := []
  unrecognized : List String := []
  suppressPrimary : Bool := false
  conflict : Bool := false
  blocked : Bool := false
  anyStartedUnobserved : Bool := false

namespace IdentityAssessment

def rogue (a : IdentityAssessment) (pod : String) : Bool :=
  a.unrecognized.contains pod

def keep (a : IdentityAssessment) (v : InstanceView) : IdentityAssessment :=
  { a with kept := a.kept ++ [v] }

/-- The view's role is not believed, and the fence says why. -/
def fence (a : IdentityAssessment) (v : InstanceView) (reason : String) : IdentityAssessment :=
  let pod := v.pod
  { a with unrecognized := a.unrecognized ++ [pod], fenced := a.fenced ++ [s!"{pod} ({reason})"] }

end IdentityAssessment

namespace IdentityInputs

variable (inputs : IdentityInputs) (v : InstanceView)

def foreign : Bool := v.systemID != 0 && v.systemID != inputs.systemID

def ahead : Bool := inputs.timeline != 0 && inputs.timeline < v.timeline

def vouched : Bool := v.systemID == inputs.systemID && inputs.timeline != 0 && v.timeline == inputs.timeline

def isCommitted : Bool := v.pod == inputs.committed && inputs.committed != ""

end IdentityInputs

def assessView (inputs : IdentityInputs) (a : IdentityAssessment) (v : InstanceView) : IdentityAssessment :=
  let timeline := v.timeline
  let recorded := inputs.timeline
  let id := v.systemID
  let unknown := v.unknown
  if inputs.isCommitted v && !inputs.foreign v then a.keep v
  else if inputs.foreign v then a.fence v s!"foreign system id {id}"
  else if v.isPrimary && inputs.vouched v then a.keep v
  else if v.isPrimary then
    let reason := if unknown then "no system id reported after latch"
      else s!"timeline {timeline} does not match recorded {recorded} and the pod is not the recognized primary"
    { (a.fence v s!"unrecognized primary claimant: {reason}").keep v with suppressPrimary := true }
  else if unknown || inputs.ahead v then
    let reason := if unknown then "no system id reported after latch"
      else s!"timeline {timeline} ahead of recorded {recorded}"
    { (a.fence v reason).keep v.stripped with blocked := true }
  else a.keep v

def assessIdentity (views : List InstanceView) (inputs : IdentityInputs) : IdentityAssessment :=
  let start : IdentityAssessment := { anyStartedUnobserved := views.any fun v => !v.observed && v.host != "" }
  if inputs.malformed then
    let a := views.foldl (fun a v => a.fence v "latched identity is unreadable; nothing can be verified") start
    { a with suppressPrimary := true, kept := views }
  else if inputs.systemID = 0 then
    if disagreement views then
      let a := views.foldl (fun a v =>
        let id := v.systemID
        a.fence v s!"system id {id}; unresolved bootstrap identity conflict") start
      { a with conflict := true, suppressPrimary := true, kept := views }
    else { start with kept := views }
  else views.foldl (assessView inputs) start

/-! ## The assessment, view by view -/

section ByView

variable (inputs : IdentityInputs) (v : InstanceView)

/-- The claim of a primary that the operator cannot vouch for. -/
def IdentityInputs.disputes : Bool :=
  !inputs.isCommitted v && !inputs.foreign v && v.isPrimary && !inputs.vouched v

def IdentityInputs.blocks : Bool :=
  !inputs.isCommitted v && !inputs.foreign v && !v.isPrimary && (v.unknown || inputs.ahead v)

def IdentityInputs.strips : Bool :=
  inputs.foreign v || inputs.disputes v || inputs.blocks v

def IdentityInputs.keeps : Option InstanceView :=
  if inputs.foreign v then none else if inputs.blocks v then some v.stripped else some v

end ByView

variable {inputs : IdentityInputs} {views : List InstanceView} {v : InstanceView} {a : IdentityAssessment}

theorem assessView_eq : (assessView inputs a v).kept = a.kept ++ (inputs.keeps v).toList ∧
    (assessView inputs a v).unrecognized = a.unrecognized ++ (if inputs.strips v then [v.pod] else []) ∧
    (assessView inputs a v).suppressPrimary = (a.suppressPrimary || inputs.disputes v) ∧
    (assessView inputs a v).blocked = (a.blocked || inputs.blocks v) ∧ (assessView inputs a v).conflict = a.conflict := by
  unfold assessView IdentityInputs.keeps IdentityInputs.strips IdentityInputs.disputes IdentityInputs.blocks
  cases committed : inputs.isCommitted v <;> cases foreign : inputs.foreign v <;> cases primary : v.isPrimary <;>
    cases vouched : inputs.vouched v <;> cases unknown : v.unknown <;> cases ahead : inputs.ahead v <;>
    simp [IdentityAssessment.keep, IdentityAssessment.fence]

theorem assessViews_eq : (views.foldl (assessView inputs) a).kept = a.kept ++ views.filterMap inputs.keeps ∧
    (views.foldl (assessView inputs) a).unrecognized = a.unrecognized ++ (views.filter inputs.strips).map (·.pod) ∧
    (views.foldl (assessView inputs) a).suppressPrimary = (a.suppressPrimary || views.any inputs.disputes) ∧
    (views.foldl (assessView inputs) a).blocked = (a.blocked || views.any inputs.blocks) ∧
    (views.foldl (assessView inputs) a).conflict = a.conflict := by
  induction views generalizing a with
  | nil => simp
  | cons v rest ih =>
    obtain ⟨kept, unrecognized, suppress, blocked, conflict⟩ := @assessView_eq inputs v a
    obtain ⟨kept', unrecognized', suppress', blocked', conflict'⟩ := @ih (assessView inputs a v)
    refine ⟨?_, ?_, ?_, ?_, conflict'.trans conflict⟩
    · rw [List.foldl_cons, kept', kept, List.append_assoc]
      cases found : inputs.keeps v <;> simp [found]
    · rw [List.foldl_cons, unrecognized', unrecognized, List.append_assoc]
      cases strips : inputs.strips v <;> simp [strips]
    · rw [List.foldl_cons, suppress', suppress, List.any_cons, Bool.or_assoc]
    · rw [List.foldl_cons, blocked', blocked, List.any_cons, Bool.or_assoc]

section

variable (parsed : inputs.malformed = false)
include parsed

theorem assessIdentity_kept (latched : inputs.systemID ≠ 0) :
    (assessIdentity views inputs).kept = views.filterMap inputs.keeps := by
  simp [assessIdentity, parsed, latched, assessViews_eq]

theorem assessIdentity_unlatched (unlatched : inputs.systemID = 0) :
    (assessIdentity views inputs).kept = views := by
  unfold assessIdentity
  rw [if_neg (by simp [parsed]), if_pos unlatched]
  split <;> rfl

theorem assessIdentity_rogue (latched : inputs.systemID ≠ 0) {pod : String} :
    (assessIdentity views inputs).rogue pod = true ↔ ∃ v ∈ views, inputs.strips v = true ∧ v.pod = pod := by
  simp [assessIdentity, parsed, latched, IdentityAssessment.rogue, assessViews_eq, and_assoc]

theorem assessIdentity_suppress (latched : inputs.systemID ≠ 0) :
    (assessIdentity views inputs).suppressPrimary = views.any inputs.disputes := by
  simp [assessIdentity, parsed, latched, assessViews_eq]

end

end PgShard.Failover
