import PgShard.Lib.Quote
import PgShard.Lib.Runs

/-! The calls of `create_database` on one PostgreSQL server, each statement on its own. -/

namespace PgShard.Agent

open Function (update update_of_ne)

def provenanceMarker (provenance : String) : String := "pgshard-provenance:" ++ provenance

structure CreateRequest where
  name : String
  owner : String := ""
  provenance : String
  adopt : Bool := false
  deriving DecidableEq

inductive DatabaseError
  /-- A database of the name exists with another comment, or none. -/
  | foreign (name : String) (found : Option String)
  | flapping (name : String)
  | server (message : String)
  deriving DecidableEq

def DatabaseError.message : DatabaseError → String
  | .foreign name (some marker) => "database " ++ Quote.debug name ++ " already exists with provenance marker " ++
      Quote.debug marker ++ "; refusing to adopt without explicit authorization"
  | .foreign name none => "database " ++ Quote.debug name ++ " already exists without a provenance marker; " ++
      "refusing to adopt without explicit authorization"
  | .flapping name => "database " ++ Quote.debug name ++ " keeps flapping between absent and present; retry later"
  | .server message => message

/-- Where a call stands: the statement it has sent, or the reply that the server has given and
that has not reached it. The rounds of the loop are counted from 0. -/
inductive DbStage
  | selecting (round : Nat)
  | selected (round : Nat) (existing : Option (Option String))
  | creating (round : Nat)
  | duplicate (round : Nat)
  | created
  | stamping
  | stamped
  | refused (message : String)
  deriving DecidableEq

def DbStage.inFlight : DbStage → Bool
  | .selecting _ | .creating _ | .stamping => true
  | _ => false

structure DbCall where
  request : CreateRequest
  stage : DbStage := .selecting 0
  /-- The caller has neither crashed nor lost its connection. -/
  alive : Bool := true
  deriving DecidableEq

abbrev Databases := String → Option (Option String)

namespace DbCall

def execute (call : DbCall) (databases : Databases) : Option (DbStage × Databases) :=
  let name := call.request.name
  match call.stage with
  | .selecting round =>
    -- the parameter has the type `name`, which holds 63 bytes
    if 63 < name.utf8ByteSize then some (.refused "identifier too long", databases)
    else some (.selected round (databases name), databases)
  | .creating round =>
    if (databases name).isSome then some (.duplicate round, databases)
    else some (.created, update databases name (some none))
  | .stamping =>
    if (databases name).isSome then
      some (.stamped, update databases name (some (some (provenanceMarker call.request.provenance))))
    else some (.refused ("database \"" ++ name ++ "\" does not exist"), databases)
  | _ => none

def receive (call : DbCall) : Option (DbStage ⊕ Except DatabaseError Unit) :=
  let { name, provenance, adopt, .. } := call.request
  match call.stage with
  | .selected round none => some (.inl (.creating round))
  | .selected _ (some found) =>
    if provenance = "" then some (.inr (.ok ()))
    else if found = some (provenanceMarker provenance) then some (.inr (.ok ()))
    else if adopt then some (.inl .stamping)
    else some (.inr (.error (.foreign name found)))
  | .created => if provenance ≠ "" then some (.inl .stamping) else some (.inr (.ok ()))
  | .duplicate round =>
    if round + 1 < 3 then some (.inl (.selecting (round + 1))) else some (.inr (.error (.flapping name)))
  | .stamped => some (.inr (.ok ()))
  | .refused message => some (.inr (.error (.server message)))
  | _ => none

end DbCall

structure DbWorld where
  databases : Databases
  count : Nat := 0
  calls : Nat → Option DbCall := fun _ => none
  results : List (CreateRequest × Except DatabaseError Unit) := []

inductive DbChoice
  | call (request : CreateRequest)
  | execute (w : Nat)
  /-- The server answers a statement with an error and does nothing. -/
  | refuse (w : Nat) (message : String)
  | receive (w : Nat)
  /-- The connection is lost and the call returns an error; a statement on its way may still run. -/
  | lose (w : Nat) (message : String)
  | crash (w : Nat)
  | drop (name : String)
  deriving DecidableEq

namespace DbWorld

def setCall (s : DbWorld) (w : Nat) (call : Option DbCall) : DbWorld :=
  { s with calls := update s.calls w call }

def ret (s : DbWorld) (request : CreateRequest) (result : Except DatabaseError Unit) : DbWorld :=
  { s with results := s.results ++ [(request, result)] }

def step (s : DbWorld) : DbChoice → Option DbWorld
  | .call request => some ({ s with count := s.count + 1 }.setCall s.count (some { request }))
  | .execute w => (s.calls w).bind fun call => (call.execute s.databases).map fun (stage, databases) =>
      { s with databases }.setCall w (some { call with stage })
  | .refuse w message => (s.calls w).bind fun call =>
      if call.stage.inFlight then some (s.setCall w (some { call with stage := .refused message })) else none
  | .receive w => (s.calls w).bind fun call =>
      if call.alive then
        call.receive.map fun
          | .inl stage => s.setCall w (some { call with stage })
          | .inr result => (s.setCall w none).ret call.request result
      else none
  | .lose w message => (s.calls w).bind fun call =>
      if call.alive then
        some ((s.setCall w (some { call with alive := false })).ret call.request (.error (.server message)))
      else none
  | .crash w => (s.calls w).map fun call => s.setCall w (some { call with alive := false })
  | .drop name => some { s with databases := update s.databases name none }

/-- No call adopts a database, and none is dropped. -/
def keepsDatabases : DbWorld → DbChoice → Bool
  | _, .call request => !request.adopt
  | _, .drop _ => false
  | _, _ => true

end DbWorld

/-! ## One creator a database -/

/-- The call has created the database and may still stamp it, or has. -/
def DbStage.creates : DbStage → Bool
  | .created | .stamping | .stamped => true
  | _ => false

/-- What a call knows of the databases, and what it relies on. -/
inductive DbCall.Sound (databases : Databases) (call : DbCall) : Prop
  | asking : (call.stage.creates = false) →
      (∀ round marker, call.stage = .selected round (some (some marker)) →
        databases call.request.name = some (some marker)) → Sound databases call
  | owning : call.stage = .created ∨ call.stage = .stamping → databases call.request.name = some none → Sound databases call
  | stamped : call.stage = .stamped →
      databases call.request.name = some (some (provenanceMarker call.request.provenance)) → Sound databases call

variable {databases : Databases} {w : Nat} {stage : DbStage}

theorem DbCall.Sound.creates_exists {call : DbCall} (sound : call.Sound databases)
    (creates : call.stage.creates = true) : databases call.request.name ≠ none := by
  cases sound with
  | asking none => simp [none] at creates
  | owning _ at_ | stamped _ at_ => simp [at_]

theorem DbCall.Sound.written {call : DbCall} {name : String} {comment : Option String}
    (sound : call.Sound databases) (unmarked : ∀ marker, databases name ≠ some (some marker))
    (other : call.request.name = name → call.stage.creates = false) :
    call.Sound (update databases name (some comment)) := by
  by_cases same : call.request.name = name
  · refine .asking (other same) fun round marker selected => ?_
    cases sound with
    | asking _ known => exact absurd (same ▸ known round marker selected) (unmarked marker)
    | owning stage _ => rcases stage with stage | stage <;> cases selected.symm.trans stage
    | stamped stage _ => cases selected.symm.trans stage
  · have apart : update databases name (some comment) call.request.name = databases call.request.name :=
      update_of_ne same ..
    cases sound with
    | asking none known => exact .asking none fun round marker selected => apart.trans (known round marker selected)
    | owning stage at_ => exact .owning stage (apart.trans at_)
    | stamped stage at_ => exact .stamped stage (apart.trans at_)

namespace DbWorld

variable {s t : DbWorld} {c : DbChoice}

structure Sound (s : DbWorld) : Prop where
  calls : ∀ {w : Nat} {call : DbCall}, s.calls w = some call → call.Sound s.databases
  plain : ∀ {w : Nat} {call : DbCall}, s.calls w = some call → call.request.adopt = false
  alone : ∀ {v w : Nat} {a b : DbCall}, s.calls v = some a → s.calls w = some b → a.stage.creates = true →
    b.stage.creates = true → a.request.name = b.request.name → v = w
  owned : ∀ {request : CreateRequest}, (request, .ok ()) ∈ s.results → request.provenance ≠ "" →
    s.databases request.name = some (some (provenanceMarker request.provenance))

theorem setCall_cases {v : Nat} {next : Option DbCall} {b : DbCall} (at_ : (s.setCall w next).calls v = some b) :
    v = w ∧ next = some b ∨ v ≠ w ∧ s.calls v = some b := by
  by_cases same : v = w
  · subst same
    exact .inl ⟨rfl, by simpa [setCall] using at_⟩
  · exact .inr ⟨same, by simpa [setCall, update_of_ne same] using at_⟩

section

variable (sound : s.Sound)
include sound

theorem Sound.move {call : DbCall} (found : s.calls w = some call) (next : Option DbCall)
    (follows : ∀ n, next = some n →
      n.Sound s.databases ∧ n.request = call.request ∧ (n.stage.creates = true → call.stage.creates = true)) :
    (s.setCall w next).Sound := by
  -- whatever a call is after the step, it was a call of the same request before
  have before : ∀ {v b}, (s.setCall w next).calls v = some b → ∃ a, s.calls v = some a ∧ b.request = a.request ∧
      (b.stage.creates = true → a.stage.creates = true) ∧ b.Sound s.databases := by
    intro v b at_
    rcases setCall_cases at_ with ⟨rfl, here⟩ | ⟨_, there⟩
    · obtain ⟨own, request, creates⟩ := follows b here
      exact ⟨call, found, request, creates, own⟩
    · exact ⟨b, there, rfl, id, sound.calls there⟩
  refine ⟨fun at_ => ?_, fun at_ => ?_, fun first second left right same => ?_, sound.owned⟩
  · obtain ⟨a, -, -, -, own⟩ := before at_
    exact own
  · obtain ⟨a, old, request, -, -⟩ := before at_
    rw [request]
    exact sound.plain old
  · obtain ⟨a, old, request, creates, -⟩ := before first
    obtain ⟨b, other, requests, created, -⟩ := before second
    rw [request, requests] at same
    exact sound.alone old other (creates left) (created right) same

theorem Sound.write {call : DbCall} {comment : Option String}
    (found : s.calls w = some call) (unmarked : ∀ marker, s.databases call.request.name ≠ some (some marker))
    (only : ∀ v b, v ≠ w → s.calls v = some b → b.request.name = call.request.name → b.stage.creates = false)
    (next : DbCall.Sound (update s.databases call.request.name (some comment)) { call with stage }) :
    ({ s with databases := update s.databases call.request.name (some comment) }.setCall w
      (some { call with stage })).Sound := by
  refine ⟨fun {v b} at_ => ?_, fun {v b} at_ => ?_, fun {u v a b} first second left right same => ?_,
    fun {request} answered named => ?_⟩
  · rcases setCall_cases at_ with ⟨rfl, ⟨⟩⟩ | ⟨differs, there⟩
    · exact next
    · exact (sound.calls there).written unmarked (only v b differs there)
  · rcases setCall_cases at_ with ⟨rfl, ⟨⟩⟩ | ⟨_, there⟩
    · have plain := sound.plain found
      exact plain
    · exact sound.plain there
  · rcases setCall_cases first with ⟨rfl, ⟨⟩⟩ | ⟨former, old⟩ <;>
      rcases setCall_cases second with ⟨rfl, ⟨⟩⟩ | ⟨latter, other⟩
    · rfl
    · exact absurd (only v b latter other same.symm) (by simp [right])
    · exact absurd (only u a former old same) (by simp [left])
    · exact sound.alone old other left right same
  · have marked := sound.owned answered named
    have apart : request.name ≠ call.request.name := fun same => unmarked _ (same ▸ marked)
    exact (update_of_ne apart ..).trans marked

theorem Sound.ret {request : CreateRequest} {result : Except DatabaseError Unit}
    (owned : result = .ok () → request.provenance ≠ "" →
      s.databases request.name = some (some (provenanceMarker request.provenance))) : (s.ret request result).Sound := by
  refine ⟨sound.calls, sound.plain, sound.alone, fun {other} answered named => ?_⟩
  rcases List.mem_append.mp answered with old | new
  · exact sound.owned old named
  · obtain ⟨rfl, rfl⟩ := Prod.mk.inj (List.mem_singleton.mp new)
    exact owned rfl named

theorem Sound.call {request : CreateRequest} (plain : request.adopt = false) :
    ({ s with count := s.count + 1 }.setCall s.count (some { request })).Sound := by
  refine ⟨fun {v b} at_ => ?_, fun {v b} at_ => ?_, fun {u v a b} first second left right same => ?_, sound.owned⟩
  · rcases setCall_cases at_ with ⟨rfl, ⟨⟩⟩ | ⟨_, there⟩
    · exact .asking rfl (by simp)
    · exact sound.calls there
  · rcases setCall_cases at_ with ⟨rfl, ⟨⟩⟩ | ⟨_, there⟩
    · exact plain
    · exact sound.plain there
  · rcases setCall_cases first with ⟨rfl, ⟨⟩⟩ | ⟨_, old⟩
    · cases left
    · rcases setCall_cases second with ⟨rfl, ⟨⟩⟩ | ⟨_, other⟩
      · cases right
      · exact sound.alone old other left right same

theorem Sound.answer {call : DbCall} (found : s.calls w = some call)
    (asks : stage.creates = false) (knows : ∀ round marker, stage = .selected round (some (some marker)) →
      s.databases call.request.name = some (some marker)) : (s.setCall w (some { call with stage })).Sound := by
  refine sound.move found _ ?_
  rintro n ⟨⟩
  exact ⟨.asking asks knows, rfl, by simp [asks]⟩

theorem Sound.execute {call : DbCall}
    (found : s.calls w = some call) (ran : call.execute s.databases = some (stage, databases)) :
    ({ s with databases }.setCall w (some { call with stage })).Sound ∧
      ∀ name marker, s.databases name = some (some marker) → databases name = some (some marker) := by
  cases at_ : call.stage with
  | selecting round =>
    simp only [DbCall.execute, at_] at ran
    split_ifs at ran <;> cases ran
    · exact ⟨sound.answer found rfl (by simp), fun _ _ => id⟩
    · refine ⟨sound.answer found rfl fun _ marker selected => ?_, fun _ _ => id⟩
      exact (DbStage.selected.inj selected).2
  | creating round =>
    simp only [DbCall.execute, at_] at ran
    split_ifs at ran with present <;> cases ran
    · exact ⟨sound.answer found rfl (by simp), fun _ _ => id⟩
    · have absent : s.databases call.request.name = none := by simpa using present
      refine ⟨sound.write found (by simp [absent]) ?_ (.owning (.inl rfl) (by simp)), fun name marker marked => ?_⟩
      · intro v b _ other name
        by_contra creates
        exact (sound.calls other).creates_exists (by simpa using creates) (name ▸ absent)
      · have apart : name ≠ call.request.name := by
          rintro rfl
          cases marked.symm.trans absent
        exact (update_of_ne apart ..).trans marked
  | stamping =>
    have own : s.databases call.request.name = some none := by
      cases sound.calls found with
      | asking none => simp [at_, DbStage.creates] at none
      | owning _ own => exact own
      | stamped stage => cases at_.symm.trans stage
    simp only [DbCall.execute, at_, own, Option.isSome_some, if_true, Option.some.injEq, Prod.mk.injEq] at ran
    obtain ⟨rfl, rfl⟩ := ran
    refine ⟨sound.write found (by simp [own]) ?_ (.stamped rfl (by simp)), fun name marker marked => ?_⟩
    · intro v b differs other name
      by_contra creates
      exact differs (sound.alone other found (by simpa using creates) (by simp [at_, DbStage.creates]) name)
    · have apart : name ≠ call.request.name := by
        rintro rfl
        cases marked.symm.trans own
      exact (update_of_ne apart ..).trans marked
  | selected | duplicate | created | stamped | refused => simp [DbCall.execute, at_] at ran

theorem Sound.receive {call : DbCall} {next : DbStage ⊕ Except DatabaseError Unit}
    (found : s.calls w = some call) (received : call.receive = some next) :
    Sound (match next with
      | .inl stage => s.setCall w (some { call with stage })
      | .inr result => (s.setCall w none).ret call.request result) := by
  have own := sound.calls found
  have leaves : (s.setCall w none).Sound := sound.move found none (by simp)
  -- an error owes nothing
  have fails : ∀ e, ((s.setCall w none).ret call.request (.error e)).Sound := fun e => leaves.ret (by simp)
  cases at_ : call.stage with
  | selected round existing =>
    cases existing with
    | none =>
      simp only [DbCall.receive, at_, Option.some.injEq] at received
      subst received
      exact sound.answer found rfl (by simp)
    | some comment =>
      simp only [DbCall.receive, at_, sound.plain found, Bool.false_eq_true, if_false] at received
      split_ifs at received with unnamed marked <;> cases received
      · exact leaves.ret fun _ named => absurd unnamed named
      · refine leaves.ret fun _ _ => ?_
        cases own with
        | asking _ knows => exact knows round _ (marked ▸ at_)
        | owning stage => rcases stage with stage | stage <;> cases at_.symm.trans stage
        | stamped stage => cases at_.symm.trans stage
      · exact fails _
  | duplicate round =>
    simp only [DbCall.receive, at_] at received
    split_ifs at received <;> cases received
    · exact sound.answer found rfl (by simp)
    · exact fails _
  | created =>
    simp only [DbCall.receive, at_] at received
    split_ifs at received with named <;> cases received
    · refine sound.move found _ ?_
      rintro n ⟨⟩
      refine ⟨?_, rfl, by simp [at_, DbStage.creates]⟩
      cases own with
      | asking none => simp [at_, DbStage.creates] at none
      | owning _ unmarked => exact .owning (.inr rfl) unmarked
      | stamped stage => cases at_.symm.trans stage
    · exact leaves.ret fun _ named' => absurd named' named
  | stamped =>
    simp only [DbCall.receive, at_, Option.some.injEq] at received
    subst received
    refine leaves.ret fun _ _ => ?_
    cases own with
    | asking none => simp [at_, DbStage.creates] at none
    | owning stage => rcases stage with stage | stage <;> cases at_.symm.trans stage
    | stamped _ marked => exact marked
  | refused message =>
    simp only [DbCall.receive, at_, Option.some.injEq] at received
    subst received
    exact fails _
  | selecting | creating | stamping => simp [DbCall.receive, at_] at received

theorem Sound.die {call : DbCall} (found : s.calls w = some call) :
    (s.setCall w (some { call with alive := false })).Sound := by
  refine sound.move found _ ?_
  rintro n ⟨⟩
  refine ⟨?_, rfl, id⟩
  cases sound.calls found with
  | asking asks knows => exact .asking asks knows
  | owning stage unmarked => exact .owning stage unmarked
  | stamped stage marked => exact .stamped stage marked

theorem Sound.next (allowed : keepsDatabases s c = true) (taken : s.step c = some t) :
    t.Sound ∧ ∀ name marker, s.databases name = some (some marker) → t.databases name = some (some marker) := by
  cases c with
  | call request =>
    cases taken
    exact ⟨sound.call (by simpa [keepsDatabases] using allowed), fun _ _ => id⟩
  | execute w =>
    obtain ⟨call, found, taken⟩ := Option.bind_eq_some_iff.mp taken
    obtain ⟨⟨stage, databases⟩, ran, rfl⟩ := Option.map_eq_some_iff.mp taken
    exact sound.execute found ran
  | refuse w message =>
    obtain ⟨call, found, taken⟩ := Option.bind_eq_some_iff.mp taken
    split_ifs at taken
    cases taken
    exact ⟨sound.answer found rfl (by simp), fun _ _ => id⟩
  | receive w =>
    obtain ⟨call, found, taken⟩ := Option.bind_eq_some_iff.mp taken
    split_ifs at taken
    obtain ⟨next, received, rfl⟩ := Option.map_eq_some_iff.mp taken
    have after := sound.receive found received
    cases next with
    | inl stage | inr result => exact ⟨after, fun _ _ => id⟩
  | lose w message =>
    obtain ⟨call, found, taken⟩ := Option.bind_eq_some_iff.mp taken
    split_ifs at taken
    cases taken
    exact ⟨(sound.die found).ret (by simp), fun _ _ => id⟩
  | crash w =>
    obtain ⟨call, found, rfl⟩ := Option.map_eq_some_iff.mp taken
    exact ⟨sound.die found, fun _ _ => id⟩
  | drop name => cases allowed

end

theorem start_sound (databases : Databases) : Sound { databases } where
  calls found := by cases found
  plain found := by cases found
  alone found := by cases found
  owned answered := by cases answered

end DbWorld

theorem provenanceMarker_inj {a b : String} : provenanceMarker a = provenanceMarker b ↔ a = b :=
  String.append_right_inj _

/-- Without adoption and without drops, every database has one owner: successful calls for one
name agree on a provenance, a marker stays as it is, and a call succeeds only where the marker is
its own. -/
theorem create_database_one_owner {databases : Databases} {s t : DbWorld}
    (reached : Runs.Under DbWorld.step DbWorld.keepsDatabases { databases } s)
    (later : Runs.Under DbWorld.step DbWorld.keepsDatabases s t) :
    (∀ a b, (a, .ok ()) ∈ s.results → (b, .ok ()) ∈ s.results → a.name = b.name → a.provenance ≠ "" →
      b.provenance ≠ "" → a.provenance = b.provenance) ∧
    (∀ name marker, s.databases name = some (some marker) → t.databases name = some (some marker)) ∧
    ∀ request, (request, .ok ()) ∈ s.results → request.provenance ≠ "" →
      s.databases request.name = some (some (provenanceMarker request.provenance)) := by
  have sound : s.Sound := reached.invariant (DbWorld.start_sound databases) fun _ _ _ sound allowed taken =>
    (sound.next allowed taken).1
  refine ⟨fun a b first second same left right => ?_, fun name marker marked => ?_, fun request => sound.owned⟩
  · have marks := (sound.owned first left).symm.trans (same ▸ sound.owned second right)
    exact provenanceMarker_inj.mp (Option.some.inj (Option.some.inj marks))
  · have kept : t.Sound ∧ t.databases name = some (some marker) := by
      induction later with
      | start => exact ⟨sound, marked⟩
      | next _ allowed taken ih =>
        obtain ⟨next, keeps⟩ := ih.1.next allowed taken
        exact ⟨next, keeps name marker ih.2⟩
    exact kept.2

/-- Two placements race for a name: the loser finds the winner's marker, and the winner's retry
succeeds. -/
theorem create_database_raced : ∃ s, Runs.Under DbWorld.step DbWorld.keepsDatabases { databases := fun _ => none } s ∧
    (({ name := "orders", provenance := "a" } : CreateRequest), .ok ()) ∈ s.results ∧
    s.databases "orders" = some (some "pgshard-provenance:a") := by
  have ran : (Runs.exec DbWorld.step DbWorld.keepsDatabases { databases := fun _ => none }
      [.call { name := "orders", provenance := "a" }, .call { name := "orders", provenance := "b" }, .execute 0, .execute 1,
        .receive 0, .receive 1, .execute 0, .execute 1, .receive 0, .receive 1, .execute 0, .lose 0 "connection closed",
        .execute 1, .receive 1, .call { name := "orders", provenance := "a" }, .execute 2, .receive 2]).any
      (fun s => (s.results.any fun r => decide (r.1 = { name := "orders", provenance := "a" }) && r.2.toBool)) = true := by
    decide +kernel
  obtain ⟨s, reached, holds⟩ := Runs.Under.exists_of_exec ran
  obtain ⟨⟨request, result⟩, member, same⟩ := List.any_eq_true.mp holds
  simp only [Bool.and_eq_true, decide_eq_true_eq] at same
  obtain ⟨rfl, isOk⟩ := same
  cases result with
  | error e => cases isOk
  | ok _ => exact ⟨s, reached, member, (create_database_one_owner reached .start).2.2 _ member (by decide)⟩

end PgShard.Agent
