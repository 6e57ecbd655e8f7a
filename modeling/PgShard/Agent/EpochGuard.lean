import PgShard.Lib.Runs

/-! The decision-epoch guard of an agent, and the handlers that run commands on its
instance under it. -/

namespace PgShard.Agent

inductive Outcome
  | apply
  | replay
  deriving DecidableEq

inductive EpochError
  | zero
  | stale (got applied : Nat)
  | conflict (epoch : Nat)
  deriving DecidableEq

structure Applied where
  epoch : Nat := 0
  key : String := ""
  seen : Bool := false
  deriving DecidableEq

namespace Applied

def check (a : Applied) (epoch : Nat) (key : String) : Except EpochError Outcome :=
  if epoch = 0 then .error .zero
  else if a.seen && epoch < a.epoch then .error (.stale epoch a.epoch)
  else if a.seen && epoch == a.epoch then if a.key ≠ key then .error (.conflict epoch) else .ok .replay
  else .ok .apply

def commit (a : Applied) (epoch : Nat) (key : String) : Applied :=
  if !a.seen || a.epoch < epoch then { epoch, key, seen := true } else a

end Applied

inductive Command
  | promote (targetPrimary : String)
  | fence (fenced : Bool)
  | rejoin (host : String) (port : Nat) (allowRewind : Bool)
  deriving DecidableEq

def Command.key : Command → String
  | .promote target => "promote:" ++ target
  | .fence fenced => "fence:" ++ toString fenced
  | .rejoin host port allowRewind => "rejoin:" ++ host ++ ":" ++ toString port ++ ":" ++ toString allowRewind

structure DecisionRequest where
  epoch : Nat
  command : Command
  deriving DecidableEq

/-- A handler whose check said to apply, before it commits or ends. -/
structure Flight where
  handler : Nat
  request : DecisionRequest
  /-- The command has taken effect on the instance. -/
  executed : Bool := false
  deriving DecidableEq

structure EpochAgent where
  pod : String
  applied : Applied := {}
  flights : List Flight := []
  executed : List DecisionRequest := []
  deriving DecidableEq

def EpochAgent.admits (s : EpochAgent) : Command → Bool
  | .promote target => target == s.pod
  | _ => true

/-- What happens between two awaits of a handler. -/
inductive EpochEvent
  /-- A request arrives and is checked. -/
  | request (handler : Nat) (request : DecisionRequest)
  /-- The instance executes the command. -/
  | effect (handler : Nat)
  /-- The instance has reported success, and the epoch is committed. -/
  | commit (handler : Nat)
  /-- The instance has reported an error, or the handler was cancelled. -/
  | abort (handler : Nat)
  deriving DecidableEq

namespace EpochAgent

def flight? (s : EpochAgent) (handler : Nat) : Option Flight :=
  s.flights.find? (·.handler == handler)

def land (s : EpochAgent) (handler : Nat) : EpochAgent :=
  { s with flights := s.flights.filter (·.handler != handler) }

def step (s : EpochAgent) : EpochEvent → Option EpochAgent
  | .request handler request =>
    if (s.flight? handler).isSome then none
    else if !s.admits request.command then some s
    else
      match s.applied.check request.epoch request.command.key with
      | .ok .apply => some { s with flights := s.flights ++ [{ handler, request }] }
      | .ok .replay | .error _ => some s
  | .effect handler =>
    match s.flight? handler with
    | some ⟨_, request, false⟩ => some { s with
        flights := s.flights.map fun f => if f.handler == handler then { f with executed := true } else f
        executed := s.executed ++ [request] }
    | _ => none
  | .commit handler =>
    match s.flight? handler with
    | some ⟨_, request, true⟩ =>
      some { s.land handler with applied := s.applied.commit request.epoch request.command.key }
    | _ => none
  | .abort handler =>
    match s.flight? handler with
    | some _ => some (s.land handler)
    | none => none

/-- One command at a time, each of which succeeds once it is executed: no request is
checked while another is in flight, and no handler ends between its effect and its
commit. -/
def oneByOne (s : EpochAgent) : EpochEvent → Bool
  | .request _ _ => s.flights.isEmpty
  | .abort handler => (s.flight? handler).all fun f => !f.executed
  | _ => true

end EpochAgent

/-! ## Commands one by one -/

section OneByOne

variable {s t : EpochAgent} {a : Applied} {r : DecisionRequest} {e : EpochEvent} {key : String} {epoch : Nat}

def Applied.Covers (a : Applied) (epoch : Nat) : Prop :=
  a.seen = true ∧ epoch ≤ a.epoch

def Applied.Below (a : Applied) (epoch : Nat) : Prop :=
  a.seen = true → a.epoch < epoch

theorem Applied.check_apply (applies : a.check epoch key = .ok .apply) : a.Below epoch := by
  intro seen
  simp only [Applied.check, seen, Bool.true_and, decide_eq_true_eq, beq_iff_eq] at applies
  split_ifs at applies
  · cases applies
  · omega

theorem Applied.Below.commit (below : a.Below epoch) : a.commit epoch key = ⟨epoch, key, true⟩ := by
  unfold Applied.commit
  rw [if_pos]
  cases seen : a.seen with
  | false => rfl
  | true => simpa using below seen

theorem Applied.Covers.lt {lower : Nat} (covers : a.Covers lower) (below : a.Below epoch) : lower < epoch :=
  covers.2.trans_lt (below covers.1)

namespace EpochAgent

variable {handler : Nat}

theorem step_effect (taken : s.step (.effect handler) = some t) : ∃ f, s.flight? handler = some f ∧ f.executed = false ∧
    t = { s with
      flights := s.flights.map fun f => if f.handler == handler then { f with executed := true } else f
      executed := s.executed ++ [f.request] } := by
  simp only [step] at taken
  split at taken
  · exact ⟨_, ‹_›, rfl, (Option.some.inj taken).symm⟩
  · cases taken

theorem step_commit (taken : s.step (.commit handler) = some t) : ∃ f, s.flight? handler = some f ∧ f.executed = true ∧
    t = { s.land handler with applied := s.applied.commit f.request.epoch f.request.command.key } := by
  simp only [step] at taken
  split at taken
  · exact ⟨_, ‹_›, rfl, (Option.some.inj taken).symm⟩
  · cases taken

theorem step_abort (taken : s.step (.abort handler) = some t) :
    ∃ f, s.flight? handler = some f ∧ t = s.land handler := by
  simp only [step] at taken
  split at taken
  · exact ⟨_, ‹_›, (Option.some.inj taken).symm⟩
  · cases taken

theorem flight_alone {pod : String} {executed : List DecisionRequest} {f g : Flight}
    (found : flight? ⟨pod, a, [f], executed⟩ handler = some g) : g = f ∧ handler = f.handler := by
  simp only [flight?, List.find?_singleton] at found
  split_ifs at found with same
  exact ⟨(Option.some.inj found).symm, (beq_iff_eq.mp same).symm⟩

end EpochAgent

/-- The states of an agent that runs its commands one by one: what is executed is
recorded by the guard, but for the command in flight. -/
inductive EpochAgent.Serial : EpochAgent → Prop
  | idle {pod : String} {applied : Applied} {executed : List DecisionRequest} :
      executed.Pairwise (fun a b => a.epoch < b.epoch) → (∀ r ∈ executed, applied.Covers r.epoch) →
      Serial ⟨pod, applied, [], executed⟩
  | checked {pod : String} {applied : Applied} {executed : List DecisionRequest} {handler : Nat} {r : DecisionRequest} :
      executed.Pairwise (fun a b => a.epoch < b.epoch) → (∀ r ∈ executed, applied.Covers r.epoch) →
      applied.Below r.epoch → Serial ⟨pod, applied, [⟨handler, r, false⟩], executed⟩
  | done {pod : String} {applied : Applied} {executed : List DecisionRequest} {handler : Nat} {r : DecisionRequest} :
      executed.Pairwise (fun a b => a.epoch < b.epoch) → (∀ r ∈ executed, applied.Covers r.epoch) →
      applied.Below r.epoch → Serial ⟨pod, applied, [⟨handler, r, true⟩], executed ++ [r]⟩

namespace EpochAgent.Serial

theorem ordered (serial : s.Serial) : s.executed.Pairwise fun a b => a.epoch < b.epoch := by
  cases serial with
  | idle ordered _ | checked ordered _ _ => exact ordered
  | done ordered covers below =>
    refine List.pairwise_append.mpr ⟨ordered, List.pairwise_singleton _ _, fun a member b last => ?_⟩
    rw [List.mem_singleton.mp last]
    exact (covers a member).lt below

theorem next (serial : s.Serial) (allowed : s.oneByOne e = true) (taken : s.step e = some t) : t.Serial := by
  cases serial with
  | idle ordered covers =>
    cases e with
    | request handler request =>
      simp only [EpochAgent.step] at taken
      split_ifs at taken
      · cases taken
        exact .idle ordered covers
      · split at taken
        · rename_i applies
          cases taken
          exact .checked ordered covers (Applied.check_apply applies)
        · cases taken
          exact .idle ordered covers
        · cases taken
          exact .idle ordered covers
    | effect handler | commit handler | abort handler => cases taken
  | @checked pod applied executed handler r ordered covers below =>
    cases e with
    | request other request => cases allowed
    | effect other =>
      obtain ⟨f, found, -, rfl⟩ := step_effect taken
      obtain ⟨rfl, rfl⟩ := flight_alone found
      simp only [List.map_cons, List.map_nil, beq_self_eq_true, if_true]
      exact .done ordered covers below
    | commit other =>
      obtain ⟨f, found, ran, -⟩ := step_commit taken
      obtain ⟨rfl, -⟩ := flight_alone found
      cases ran
    | abort other =>
      obtain ⟨f, found, rfl⟩ := step_abort taken
      obtain ⟨rfl, rfl⟩ := flight_alone found
      simp only [land, List.filter_cons, bne_self_eq_false, List.filter_nil]
      exact .idle ordered covers
  | @done pod applied executed handler r ordered covers below =>
    cases e with
    | request other request => cases allowed
    | effect other =>
      obtain ⟨f, found, waits, -⟩ := step_effect taken
      obtain ⟨rfl, -⟩ := flight_alone found
      cases waits
    | commit other =>
      obtain ⟨f, found, -, rfl⟩ := step_commit taken
      obtain ⟨rfl, rfl⟩ := flight_alone found
      simp only [land, List.filter_cons, bne_self_eq_false, List.filter_nil, below.commit]
      refine .idle (@Serial.done pod applied executed other r ordered covers below).ordered fun q member => ?_
      rcases List.mem_append.mp member with old | new
      · exact ⟨rfl, ((covers q old).lt below).le⟩
      · rw [List.mem_singleton.mp new]
        exact ⟨rfl, le_rfl⟩
    | abort other =>
      obtain ⟨f, found, -⟩ := step_abort taken
      obtain ⟨rfl, -⟩ := flight_alone found
      simp only [oneByOne, found] at allowed
      cases allowed

end EpochAgent.Serial

end OneByOne

end PgShard.Agent
