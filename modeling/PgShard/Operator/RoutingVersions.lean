import PgShard.Lib.Runs
import PgShard.Operator.Routing

/-! Concurrent writers of one routing object, whose epochs number its specs. -/

namespace PgShard.Operator

open Versioned Effects

/-! ## Runs -/

structure WriteCall where
  desired : RoutingSpec
  rest : RoutingCtl (Nat × Bool)

structure Writers where
  routing : History RoutingSpec := {}
  calls : List WriteCall := []

/-- A request is answered, or it fails, with or without having been carried out. -/
inductive Outcome
  | answered
  | lost
  | refused
  deriving DecidableEq

inductive WriteEvent
  | begin (desired : RoutingSpec) (retries : Nat)
  | advance (call : Nat) (outcome : Outcome)

/-- The server's part: reads are current, and an update needs the current version. -/
def serveRouting (h : History RoutingSpec) : (o : RoutingOp) → Outcome → Option (History RoutingSpec × RoutingAns o)
  | .getRouting _, .answered => some (h, match h.latest with
    | some current => .found current
    | none => .notFound)
  | .getRouting _, _ => some (h, .failed)
  | .createRouting _ spec, outcome =>
    match outcome, h.current with
    | .answered, some _ => some (h, .alreadyExists)
    | .answered, none => some (h.push (some spec), .created)
    | .lost, none => some (h.push (some spec), .failed)
    | _, _ => some (h, .failed)
  | .updateRouting _ spec, outcome =>
    match outcome, h.accepts spec.version with
    | .answered, false => some (h, .conflict)
    | .answered, true => some (h.push (some spec.obj), .stored h.size)
    | .lost, true => some (h.push (some spec.obj), .failed)
    | _, _ => some (h, .failed)
  | _, _ => none

def Writers.step (key : String) (w : Writers) : WriteEvent → Option Writers
  | .begin desired retries => some { w with calls := w.calls ++ [⟨desired, write key desired retries⟩] }
  | .advance i outcome =>
    match w.calls[i]? with
    | some ⟨desired, .call o k⟩ =>
      (serveRouting w.routing o outcome).map fun (routing, answer) =>
        { routing, calls := w.calls.set i ⟨desired, k answer⟩ }
    | _ => none

/-! ## What a writer knows -/

/-- The shards and tables of two specs are the same up to endpoints. -/
def RoutingSpec.SameTopology (a b : RoutingSpec) : Prop :=
  a.shards.map structuralShard = b.shards.map structuralShard ∧ a.tables = b.tables

instance (a b : RoutingSpec) : Decidable (a.SameTopology b) := inferInstanceAs (Decidable (_ ∧ _))

/-- A stored spec follows another by one epoch, and by one generation if the topology differs. -/
structure Follows (old new : RoutingSpec) : Prop where
  epoch : new.epoch = old.epoch + 1
  generation : new.topologyGeneration = if old.SameTopology new then old.topologyGeneration else old.topologyGeneration + 1
  changed : new.content ≠ old.content

def writing : Monitor RoutingAns (Option (Copy RoutingSpec)) where
  permits read
    | .getRouting _ => True
    | .createRouting _ spec => spec.epoch = 1 ∧ spec.topologyGeneration = 1
    | .updateRouting _ spec => ∃ old, read = some old ∧ spec.version = old.version ∧ Follows old.obj spec.obj
    | _ => False
  gives _ _ := True
  next
    | _, .getRouting _, .found current => some current
    | _, _, _ => none

/-- A writer that has changed nothing has read what it wanted to write. -/
def Unchanged (desired : RoutingSpec) (read : Option (Copy RoutingSpec)) (result : Nat × Bool) : Prop :=
  result.2 = false → ∃ old, read = some old ∧ old.obj.epoch = result.1 ∧ old.obj.content = desired.content

variable {key : String} {desired spec old new : RoutingSpec} {h h' : History RoutingSpec} {w w' : Writers}
  {e : WriteEvent} {i : Nat}

theorem structuralChange_iff : structuralChange old new = true ↔ ¬ old.SameTopology new := by
  simp only [structuralChange, RoutingSpec.SameTopology, Bool.or_eq_true, bne_iff_ne, not_and_or]

theorem nextSpec_follows (differ : ¬ specEquivalent old desired = true) : Follows old (nextSpec old desired) where
  epoch := rfl
  generation := by
    have same : old.SameTopology (nextSpec old desired) ↔ old.SameTopology desired := Iff.rfl
    simp only [same]
    change (if structuralChange old desired = true then _ else _) = _
    by_cases kept : old.SameTopology desired
    · rw [if_pos kept, if_neg (by rw [structuralChange_iff]; exact not_not.mpr kept)]
    · rw [if_neg kept, if_pos (structuralChange_iff.mpr kept)]
  changed same := differ (beq_iff_eq.mpr same.symm)

theorem write_obeys (retries : Nat) (read : Option (Copy RoutingSpec)) :
    writing.Obeys (write key desired retries) read (Unchanged desired) fun _ _ => True := by
  induction retries generalizing read with
  | zero => trivial
  | succ retries ih =>
    refine Monitor.obeys_bind.mpr ⟨trivial, fun got _ => ?_⟩
    cases got with
    | failed => trivial
    | notFound =>
      refine Monitor.obeys_bind.mpr ⟨⟨rfl, rfl⟩, fun answer _ => ?_⟩
      cases answer with
      | created => exact fun unchanged => by cases unchanged
      | alreadyExists => exact ih _
      | failed => trivial
    | found current =>
      refine Monitor.obeys_ite (fun same _ => ?_) fun differ => ?_
      · exact ⟨current, rfl, rfl, beq_iff_eq.mp same⟩
      · refine Monitor.obeys_bind.mpr ⟨⟨current, rfl, rfl, nextSpec_follows differ⟩, fun wrote _ => ?_⟩
        cases wrote with
        | stored version => exact fun unchanged => by cases unchanged
        | conflict => exact ih _
        | failed => trivial

/-! ## What is stored -/

/-- The specs are numbered from one, and each follows the one before. -/
structure Numbered (h : History RoutingSpec) : Prop where
  full : ∀ i < h.size, ∃ spec, h.entry i = some spec
  epoch : ∀ i spec, h.entry i = some spec → spec.epoch = i + 1
  first : ∀ spec, h.entry 0 = some spec → spec.topologyGeneration = 1
  next : ∀ i old new, h.entry i = some old → h.entry (i + 1) = some new → Follows old new

theorem Numbered.create (numbered : Numbered h) (absent : h.current = none) (epoch : spec.epoch = 1)
    (generation : spec.topologyGeneration = 1) : Numbered (h.push (some spec)) := by
  have empty : h.size = 0 := by
    by_contra nonempty
    obtain ⟨last, found⟩ := numbered.full (h.size - 1) (by omega)
    cases absent.symm.trans found
  have only : ∀ {i new}, (h.push (some spec)).entry i = some new → i = 0 ∧ new = spec := by
    intro i new found
    rcases History.entry_push_cases found with before | ⟨here, stored⟩
    · have bound := History.lt_of_entry before
      omega
    · cases stored
      exact ⟨here.trans empty, rfl⟩
  refine ⟨fun i inside => ?_, fun i new found => ?_, fun new found => ?_, fun i old new _ found => ?_⟩
  · rw [History.size_push, empty] at inside
    obtain rfl : i = h.size := by omega
    exact ⟨spec, by simp [History.entry, History.push, History.size]⟩
  · obtain ⟨rfl, rfl⟩ := only found
    exact epoch
  · obtain ⟨-, rfl⟩ := only found
    exact generation
  · obtain ⟨impossible, -⟩ := only found
    omega

theorem Numbered.update {copy : Copy RoutingSpec} (numbered : Numbered h) (genuine : h.Genuine copy)
    (accepted : h.accepts copy.version = true) (follows : Follows copy.obj spec) : Numbered (h.push (some spec)) := by
  have last : copy.version + 1 = h.size := beq_iff_eq.mp accepted
  refine ⟨fun i inside => ?_, fun i new found => ?_, fun new found => ?_, fun i old new before found => ?_⟩
  · rw [History.size_push] at inside
    by_cases earlier : i < h.size
    · obtain ⟨old, found⟩ := numbered.full i earlier
      exact ⟨old, History.entry_push found⟩
    · obtain rfl : i = h.size := by omega
      exact ⟨spec, by simp [History.entry, History.push, History.size]⟩
  · rcases History.entry_push_cases found with before | ⟨rfl, stored⟩
    · exact numbered.epoch i new before
    · cases stored
      rw [follows.epoch, numbered.epoch _ _ genuine, last]
  · rcases History.entry_push_cases found with before | ⟨here, _⟩
    · exact numbered.first new before
    · omega
  · rcases History.entry_push_cases found with later | ⟨here, stored⟩
    · have bound := History.lt_of_entry later
      rw [History.entry_push_of_lt (by omega)] at before
      exact numbered.next i old new before later
    -- the spec that is replaced is the one that was read
    · cases stored
      obtain rfl : i = copy.version := by omega
      rw [History.entry_push_of_lt (by omega)] at before
      cases before.symm.trans genuine
      exact follows

theorem serveRouting_numbered {o : RoutingOp} {outcome : Outcome} {answer : RoutingAns o}
    {read : Option (Copy RoutingSpec)} (numbered : Numbered h) (genuine : ∀ copy, read = some copy → h.Genuine copy)
    (permitted : writing.permits read o) (served : serveRouting h o outcome = some (h', answer)) :
    Numbered h' ∧ (∀ copy, h.Genuine copy → h'.Genuine copy) ∧
      ∀ copy, writing.next read o answer = some copy → h'.latest = some copy := by
  cases o with
  | getRouting name =>
    cases outcome with
    | answered =>
      simp only [serveRouting, Option.some.injEq, Prod.mk.injEq] at served
      obtain ⟨rfl, rfl⟩ := served
      refine ⟨numbered, fun _ => id, fun copy known => ?_⟩
      cases found : h.latest with
      | some current =>
        rw [found] at known
        exact known
      | none =>
        rw [found] at known
        cases known
    | _ =>
      cases served
      exact ⟨numbered, fun _ => id, fun copy known => by cases known⟩
  | createRouting name spec =>
    obtain ⟨epoch, generation⟩ := permitted
    cases current : h.current with
    | some stored =>
      cases outcome <;> simp only [serveRouting, current] at served <;> cases served <;>
        exact ⟨numbered, fun _ => id, fun copy known => by cases known⟩
    | none =>
      have created := numbered.create current epoch generation
      cases outcome <;> simp only [serveRouting, current] at served <;> cases served
      · exact ⟨created, fun _ => .push, fun copy known => by cases known⟩
      · exact ⟨created, fun _ => .push, fun copy known => by cases known⟩
      · exact ⟨numbered, fun _ => id, fun copy known => by cases known⟩
  | updateRouting name spec =>
    obtain ⟨old, held, version, follows⟩ := permitted
    cases accepted : h.accepts spec.version with
    | false =>
      cases outcome <;> simp only [serveRouting, accepted] at served <;> cases served <;>
        exact ⟨numbered, fun _ => id, fun copy known => by cases known⟩
    | true =>
      have updated := numbered.update (genuine old held) (version ▸ accepted) follows
      cases outcome <;> simp only [serveRouting, accepted] at served <;> cases served
      · exact ⟨updated, fun _ => .push, fun copy known => by cases known⟩
      · exact ⟨updated, fun _ => .push, fun copy known => by cases known⟩
      · exact ⟨numbered, fun _ => id, fun copy known => by cases known⟩
  | _ => cases permitted

/-- The calls in flight know what they have read, which was stored. -/
structure Writers.Lawful (w : Writers) : Prop where
  numbered : Numbered w.routing
  calls : ∀ call ∈ w.calls, ∃ read, (∀ copy, read = some copy → w.routing.Genuine copy) ∧
    writing.Obeys call.rest read (Unchanged call.desired) fun _ _ => True

theorem Writers.step_cases (taken : w.step key e = some w') :
    (∃ desired retries, w' = { w with calls := w.calls ++ [⟨desired, write key desired retries⟩] }) ∨
    ∃ i desired o k outcome answer, w.calls[i]? = some ⟨desired, .call o k⟩ ∧
      serveRouting w.routing o outcome = some (w'.routing, answer) ∧ w'.calls = w.calls.set i ⟨desired, k answer⟩ := by
  cases e with
  | «begin» desired retries =>
    cases taken
    exact .inl ⟨desired, retries, rfl⟩
  | advance i outcome =>
    simp only [Writers.step] at taken
    split at taken
    · rename_i desired o k waiting
      obtain ⟨⟨routing, answer⟩, served, rfl⟩ := Option.map_eq_some_iff.mp taken
      exact .inr ⟨i, desired, o, k, outcome, answer, waiting, served, rfl⟩
    · cases taken

theorem Writers.Lawful.next (lawful : w.Lawful) (taken : w.step key e = some w') : w'.Lawful := by
  rcases Writers.step_cases taken with ⟨desired, retries, rfl⟩ |
    ⟨i, desired, o, k, outcome, answer, waiting, served, calls⟩
  · refine ⟨lawful.numbered, fun call member => ?_⟩
    rcases List.mem_append.mp member with old | new
    · exact lawful.calls call old
    · rw [List.mem_singleton.mp new]
      exact ⟨none, fun copy known => (Option.some_ne_none copy known.symm).elim, write_obeys retries none⟩
  · obtain ⟨read, genuine, permitted, continues⟩ := lawful.calls _ (List.mem_of_getElem? waiting)
    obtain ⟨numbered, kept, known⟩ := serveRouting_numbered lawful.numbered genuine permitted served
    refine ⟨numbered, fun call member => ?_⟩
    rw [calls] at member
    rcases List.mem_or_eq_of_mem_set member with old | rfl
    · obtain ⟨read, genuine, obeys⟩ := lawful.calls call old
      exact ⟨read, fun copy held => kept copy (genuine copy held), obeys⟩
    · exact ⟨_, fun copy held => History.read_genuine (known copy held), continues answer trivial⟩

theorem Writers.Lawful.returns {epoch : Nat} (lawful : w.Lawful) (taken : w.step key e = some w')
    (returned : w'.calls[i]? = some ⟨desired, .ret (epoch, false)⟩) :
    w.calls[i]? = some ⟨desired, .ret (epoch, false)⟩ ∨
      ∃ spec, w'.routing.current = some spec ∧ spec.epoch = epoch ∧ spec.content = desired.content := by
  rcases Writers.step_cases taken with ⟨other, retries, rfl⟩ |
    ⟨j, wanted, o, k, outcome, answer, waiting, served, calls⟩
  · by_cases old : i < w.calls.length
    · rw [List.getElem?_append_left old] at returned
      exact .inl returned
    · rw [List.getElem?_append_right (not_lt.mp old), List.getElem?_singleton] at returned
      split at returned
      · have same := congrArg WriteCall.rest (Option.some.inj returned)
        cases retries <;> cases same
      · cases returned
  · rw [calls] at returned
    by_cases here : j = i
    · subst here
      obtain ⟨inside, -⟩ := List.getElem?_eq_some_iff.mp waiting
      rw [List.getElem?_set_self inside] at returned
      obtain ⟨read, genuine, permitted, continues⟩ := lawful.calls _ (List.mem_of_getElem? waiting)
      obtain ⟨-, -, known⟩ := serveRouting_numbered lawful.numbered genuine permitted served
      have done := continues answer trivial
      obtain ⟨rfl, rest⟩ := WriteCall.mk.inj (Option.some.inj returned)
      rw [rest] at done
      obtain ⟨copy, held, same, content⟩ := done rfl
      exact .inr ⟨copy.obj, History.latest_current (known copy held), same, content⟩
    · rw [List.getElem?_set_ne here] at returned
      exact .inl returned

theorem Numbered.generation_le {i j : Nat} (numbered : Numbered h) (before : i ≤ j) (first : h.entry i = some old)
    (second : h.entry j = some new) : old.topologyGeneration ≤ new.topologyGeneration := by
  induction j, before using Nat.le_induction generalizing new with
  | base =>
    cases first.symm.trans second
    exact le_refl _
  | succ j later ih =>
    obtain ⟨between, found⟩ := numbered.full j (Nat.lt_of_succ_lt (History.lt_of_entry second))
    have grows := (numbered.next j between new found second).generation
    have below := ih found
    split_ifs at grows <;> omega

/-- In every run of concurrent writers the epochs of the stored specs are 1, 2, 3 and so on. Specs with one epoch are
the same. The generation starts at one, never falls, and grows by one exactly where the shards or the tables change.
A call that returns without a change leaves a stored spec that is its own up to the two numbers. -/
theorem epochs_number_specs (reached : Runs.Under (Writers.step key) (fun _ _ => true) {} w) :
    (∀ i < w.routing.size, ∃ spec, w.routing.entry i = some spec ∧ spec.epoch = i + 1) ∧
    (∀ i j a b, w.routing.entry i = some a → w.routing.entry j = some b → a.epoch = b.epoch → a = b) ∧
    (∀ spec, w.routing.entry 0 = some spec → spec.topologyGeneration = 1) ∧
    (∀ i j a b, i ≤ j → w.routing.entry i = some a → w.routing.entry j = some b →
      a.topologyGeneration ≤ b.topologyGeneration) ∧
    (∀ i a b, w.routing.entry i = some a → w.routing.entry (i + 1) = some b → a.content ≠ b.content ∧
      b.topologyGeneration = if a.shards.map structuralShard = b.shards.map structuralShard ∧ a.tables = b.tables then
        a.topologyGeneration else a.topologyGeneration + 1) ∧
    ∀ e w' (i : Nat) desired epoch, w.step key e = some w' → w'.calls[i]? = some ⟨desired, .ret (epoch, false)⟩ →
      w.calls[i]? = some ⟨desired, .ret (epoch, false)⟩ ∨
        ∃ spec, w'.routing.current = some spec ∧ spec.epoch = epoch ∧ spec.content = desired.content := by
  have lawful : w.Lawful := by
    refine reached.invariant ⟨⟨?_, ?_, ?_, ?_⟩, ?_⟩ fun _ _ _ lawful _ taken => Writers.Lawful.next lawful taken <;>
      simp [History.entry, History.size]
  have numbered := lawful.numbered
  refine ⟨fun i inside => ?_, fun i j a b first second same => ?_, numbered.first,
    fun i j a b before first second => numbered.generation_le before first second, fun i a b first second => ?_,
    fun e w' i desired epoch taken returned => lawful.returns taken returned⟩
  · obtain ⟨spec, found⟩ := numbered.full i inside
    exact ⟨spec, found, numbered.epoch i spec found⟩
  · obtain rfl : i = j := by
      have one := numbered.epoch i a first
      have other := numbered.epoch j b second
      omega
    exact Option.some.inj (first.symm.trans second)
  · have follows := numbered.next i a b first second
    exact ⟨follows.changed.symm, follows.generation⟩

def plainSpec : RoutingSpec := { writeLeaseSeconds := 10, hashFunction := "xxhash64_v1" }

def tabledSpec : RoutingSpec :=
  { plainSpec with tables := [{ schema := "public", name := "orders", type := .sharded }] }

/-- Both find nothing and create, and the first loses its answer; a third writer of the plain spec changes nothing
before the second updates. -/
theorem epochs_number_specs_race : ∃ w : Writers, Runs.Under (Writers.step "main") (fun _ _ => true) {} w ∧
    w.routing.entries.map (·.map fun spec => (spec.epoch, spec.topologyGeneration)) = [some (1, 1), some (2, 2)] ∧
    ∀ i < w.routing.size, ∃ spec, w.routing.entry i = some spec ∧ spec.epoch = i + 1 := by
  have ran : (Runs.exec (Writers.step "main") (fun _ _ => true) {}
      [.begin plainSpec 2, .begin tabledSpec 2, .advance 0 .answered, .advance 1 .answered, .advance 0 .lost,
        .advance 1 .answered, .advance 1 .answered, .begin plainSpec 1, .advance 2 .answered,
        .advance 1 .answered]).any (fun w => decide (w.routing.entries.map
          (·.map fun spec => (spec.epoch, spec.topologyGeneration)) = [some (1, 1), some (2, 2)])) = true := by
    decide +kernel
  obtain ⟨w, reached, holds⟩ := Runs.Under.exists_of_exec ran
  exact ⟨w, reached, of_decide_eq_true holds, (epochs_number_specs reached).1⟩

end PgShard.Operator
