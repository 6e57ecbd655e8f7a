import PgShard.Lib.SlotMap
import PgShard.Agent.Journal
import PgShard.Lib.Quote

/-! The restore points of an agent: the slot of each name, and the tasks under its lock. -/

namespace PgShard.Agent

open Function (update update_self update_of_ne update_eq_self)

structure RestorePoint where
  lsn : Nat
  timeline : Nat
  deriving DecidableEq

/-- A call of `create_restore_point`: it waits for the lock of the map, or for the task it
has spawned. -/
inductive PointHandler
  | fetching (name : String)
  | awaiting
  deriving DecidableEq

structure PointTask where
  call : Nat
  name : String
  slot : Nat
  deriving DecidableEq

/-- The task that holds a slot's lock while the instance runs its statement, and the point
once that is written. -/
structure PointHolder where
  task : PointTask
  written : Option RestorePoint := none
  deriving DecidableEq

structure PointSlot where
  point : Option RestorePoint := none
  holder : Option PointHolder := none
  deriving DecidableEq

/-- An agent, with the points that are written under each name, the statements that were
given up although they may still write theirs, and what callers were answered. -/
structure PointAgent where
  calls : Nat := 0
  handlers : Nat → Option PointHandler := fun _ => none
  queued : Nat → Option PointTask := fun _ => none
  restorePoints : SlotMap String PointSlot := .empty {}
  outstanding : List String := []
  written : String → List RestorePoint := fun _ => []
  answers : String → List (Except JournalError RestorePoint) := fun _ => []

inductive PointChoice
  | call (name : String)
  /-- A handler gets the lock of the map. -/
  | fetch (w : Nat)
  /-- A handler is dropped where it waits; its task is detached and goes on. -/
  | cancel (w : Nat)
  /-- A task gets the lock of its slot. -/
  | lock (w : Nat)
  /-- PostgreSQL writes the point. -/
  | write (i : Nat) (rp : RestorePoint)
  | succeed (i : Nat)
  /-- The instance reports an error; with `late`, the point may be written yet. -/
  | fail (i : Nat) (late : Bool) (message : String)
  | timeout (i : Nat) (late : Bool)
  /-- A point is written by a statement that was given up. -/
  | land (name : String) (rp : RestorePoint)
  deriving DecidableEq

namespace PointAgent

def answer (s : PointAgent) (name : String) (result : Except JournalError RestorePoint) : PointAgent :=
  { s with answers := update s.answers name (s.answers name ++ [result]) }

def finish (s : PointAgent) (task : PointTask) (result : Except JournalError RestorePoint) : PointAgent :=
  match s.handlers task.call with
  | some .awaiting => { s with handlers := update s.handlers task.call none }.answer task.name result
  | _ => s

def setSlot (s : PointAgent) (i : Nat) (slot : PointSlot) : PointAgent :=
  { s with restorePoints := s.restorePoints.set i slot }

def record (s : PointAgent) (name : String) (rp : RestorePoint) : PointAgent :=
  { s with written := update s.written name (s.written name ++ [rp]) }

/-- A task without a point to show for gives up the lock; its statement may still be running. -/
def giveUp (s : PointAgent) (i : Nat) (late : Bool) (message : String) : Option PointAgent :=
  (s.restorePoints.cells i).holder.map fun h =>
    { s.setSlot i { s.restorePoints.cells i with holder := none } with
      outstanding := if h.written.isNone && late then h.task.name :: s.outstanding else s.outstanding }.finish h.task
        (.error (.internal message))

def step (s : PointAgent) : PointChoice → Option PointAgent
  | .call name =>
    match checkIdent "restore point name" name true with
    | .error e => some (s.answer name (.error e))
    | .ok _ => some { s with
        calls := s.calls + 1
        handlers := update s.handlers s.calls (some (.fetching name)) }
  | .fetch w =>
    match s.handlers w with
    | some (.fetching name) =>
      let (restorePoints, slot) := s.restorePoints.entry name {}
      some { s with
        restorePoints
        handlers := update s.handlers w (some .awaiting)
        queued := update s.queued w (some ⟨w, name, slot⟩) }
    | _ => none
  | .cancel w => (s.handlers w).map fun _ => { s with handlers := update s.handlers w none }
  | .lock w =>
    match s.queued w with
    | none => none
    | some task =>
      let slot := s.restorePoints.cells task.slot
      let dequeued := { s with queued := update s.queued w none }
      match slot.holder, slot.point with
      | some _, _ => none
      | none, some rp => some (dequeued.finish task (.ok rp))
      | none, none => some (dequeued.setSlot task.slot { slot with holder := some { task } })
  | .write i rp =>
    match (s.restorePoints.cells i).holder with
    | some ⟨task, none⟩ =>
      some ((s.setSlot i { s.restorePoints.cells i with holder := some ⟨task, some rp⟩ }).record task.name rp)
    | _ => none
  | .succeed i =>
    match (s.restorePoints.cells i).holder with
    | some ⟨task, some rp⟩ => some ((s.setSlot i { point := some rp }).finish task (.ok rp))
    | _ => none
  | .fail i late message => s.giveUp i late message
  | .timeout i late =>
    (s.restorePoints.cells i).holder.bind fun h => s.giveUp i late ("restore point " ++ Quote.debug h.task.name ++ " timed out")
  | .land name rp =>
    if name ∈ s.outstanding then some ({ s with outstanding := s.outstanding.erase name }.record name rp) else none

/-- No call times out, and an error is reported only of a point that is not written and never
will be. -/
def failsClean (s : PointAgent) : PointChoice → Bool
  | .fail i late _ => (s.restorePoints.cells i).holder.all fun h => h.written.isNone && !late
  | .timeout _ _ => false
  | _ => true

end PointAgent

/-! ## One point a name -/

variable {answers : List (Except JournalError RestorePoint)} {name : String} {i : Nat}

/-- What the slot of a name can be, with the points written under the name and the answers
its callers got. -/
inductive PointSlot.Sound : Option PointSlot → List RestorePoint → List (Except JournalError RestorePoint) → Prop
  | absent {answers : List (Except JournalError RestorePoint)} : (∀ rp, .ok rp ∉ answers) → Sound none [] answers
  | idle {answers : List (Except JournalError RestorePoint)} : (∀ rp, .ok rp ∉ answers) → Sound (some {}) [] answers
  | creating {answers : List (Except JournalError RestorePoint)} {h : PointHolder} : (∀ rp, .ok rp ∉ answers) →
      Sound (some ⟨none, some h⟩) h.written.toList answers
  | recorded {answers : List (Except JournalError RestorePoint)} {rp : RestorePoint} :
      (∀ other, .ok other ∈ answers → other = rp) → Sound (some ⟨some rp, none⟩) [rp] answers

namespace PointSlot

theorem Sound.refused {slot : Option PointSlot} {points : List RestorePoint}
    {more : List (Except JournalError RestorePoint)} {e : JournalError} (sound : Sound slot points answers)
    (all : ∀ r ∈ more, r = .error e) : Sound slot points (answers ++ more) := by
  have only : ∀ rp, .ok rp ∈ answers ++ more → .ok rp ∈ answers := by
    intro rp member
    rcases List.mem_append.mp member with old | new
    · exact old
    · cases all _ new
  cases sound with
  | absent none => exact .absent fun rp member => none rp (only rp member)
  | idle none => exact .idle fun rp member => none rp (only rp member)
  | creating none => exact .creating fun rp member => none rp (only rp member)
  | recorded same => exact .recorded fun rp member => same rp (only rp member)

theorem Sound.replayed {rp : RestorePoint}
    {more : List (Except JournalError RestorePoint)} (only : ∀ other, .ok other ∈ answers → other = rp)
    (all : ∀ r ∈ more, r = .ok rp) : Sound (some ⟨some rp, none⟩) [rp] (answers ++ more) := by
  refine .recorded fun other member => ?_
  rcases List.mem_append.mp member with old | new
  · exact only other old
  · exact Except.ok.inj (all _ new)

end PointSlot

namespace PointAgent

variable {s t : PointAgent} {c : PointChoice}

theorem finish_eq (task : PointTask) (result : Except JournalError RestorePoint) : ∃ handlers more,
    s.finish task result = { s with
      handlers := handlers, answers := update s.answers task.name (s.answers task.name ++ more) } ∧
    ∀ r ∈ more, r = result := by
  unfold finish
  split
  · exact ⟨_, [result], rfl, by simp⟩
  · exact ⟨s.handlers, [], by simp, by simp⟩

/-- Tasks and lock holders are at the slot of their name, and no statement is left behind. -/
structure Sound (s : PointAgent) : Prop where
  slots : ∀ name, PointSlot.Sound (s.restorePoints.find name) (s.written name) (s.answers name)
  queued : ∀ {w : Nat} {task : PointTask}, s.queued w = some task → s.restorePoints.index task.name = some task.slot
  holders : ∀ {i : Nat} {h : PointHolder}, (s.restorePoints.cells i).holder = some h →
    s.restorePoints.index h.task.name = some i
  settled : s.outstanding = []

theorem Sound.advance (sound : s.Sound) {slot : PointSlot} {points : List RestorePoint} (handlers : Nat → Option PointHandler)
    (queued : Nat → Option PointTask) (own : s.restorePoints.index name = some i)
    (next : PointSlot.Sound (some slot) points answers) (holder : ∀ h, slot.holder = some h → h.task.name = name)
    (fewer : ∀ w task, queued w = some task → s.queued w = some task) :
    Sound { s with
      handlers := handlers, queued := queued, restorePoints := s.restorePoints.set i slot
      written := update s.written name points, answers := update s.answers name answers } where
  slots other := by
    by_cases same : other = name
    · subst same
      simpa [SlotMap.find_set own] using next
    · simpa [SlotMap.find_set_of_ne own same, update_of_ne same] using sound.slots other
  queued found := sound.queued (fewer _ _ found)
  holders {j h} held := by
    by_cases same : j = i
    · subst same
      simp only [SlotMap.set, update_self] at held
      rw [SlotMap.set_index, holder h held]
      exact own
    · simp only [SlotMap.set, update_of_ne same] at held
      exact sound.holders held
  settled := sound.settled

theorem dequeued (w v : Nat) (task : PointTask) (found : update s.queued w none v = some task) :
    s.queued v = some task := by
  by_cases same : v = w
  · subst same
    simp at found
  · rwa [update_of_ne same] at found

section

variable (sound : s.Sound)
include sound

theorem Sound.own (own : s.restorePoints.index name = some i) :
    PointSlot.Sound (some (s.restorePoints.cells i)) (s.written name) (s.answers name) := by
  rw [← SlotMap.find_of_index own]
  exact sound.slots name

theorem Sound.call (taken : s.step (.call name) = some t) : t.Sound := by
  simp only [PointAgent.step] at taken
  split at taken <;> cases taken
  · rename_i e _
    refine ⟨fun other => ?_, sound.queued, sound.holders, sound.settled⟩
    by_cases same : other = name
    · subst same
      have all : ∀ r ∈ [(Except.error e : Except JournalError RestorePoint)], r = .error e := by simp
      simpa [answer] using (sound.slots other).refused all
    · simpa [answer, update_of_ne same] using sound.slots other
  · exact { sound with }

theorem Sound.fetch {w : Nat} (taken : s.step (.fetch w) = some t) : t.Sound := by
  simp only [PointAgent.step] at taken
  split at taken
  · rename_i name _
    cases taken
    refine ⟨fun other => ?_, fun {v task} found => ?_, fun {i h} held => ?_, sound.settled⟩
    · by_cases same : other = name
      · subst same
        have old := sound.slots other
        simp only [SlotMap.find_entry]
        generalize s.restorePoints.find other = slot, s.written other = points at old ⊢
        cases old with
        | absent none | idle none => exact .idle none
        | creating none => exact .creating none
        | recorded only => exact .recorded only
      · simpa [SlotMap.find_entry_of_ne same] using sound.slots other
    · by_cases same : v = w
      · subst same
        simp only [update_self, Option.some.injEq] at found
        subst found
        exact SlotMap.entry_index
      · simp only [update_of_ne same] at found
        exact SlotMap.entry_keeps (sound.queued found)
    · rcases SlotMap.entry_cases s.restorePoints name {} with ⟨_, -, same⟩ | ⟨-, -, -, cells⟩
      · simp only [same] at held ⊢
        exact sound.holders held
      · simp only [cells] at held
        by_cases new : i = s.restorePoints.size
        · subst new
          simp at held
        · simp only [update_of_ne new] at held
          exact SlotMap.entry_keeps (sound.holders held)
  · cases taken

theorem Sound.lock {w : Nat} (taken : s.step (.lock w) = some t) : t.Sound := by
  cases waits : s.queued w with
  | none => simp [PointAgent.step, waits] at taken
  | some task =>
    have own := sound.queued waits
    have old := sound.own own
    cases slot : s.restorePoints.cells task.slot with
    | mk point holder =>
      rw [slot] at old
      generalize points : s.written task.name = wrote at old
      cases old with
      | idle none =>
        simp only [PointAgent.step, waits, slot, Option.some.injEq] at taken
        subst taken
        have next := sound.advance s.handlers _ own (.creating (h := { task }) none) (by simp) (dequeued w)
        rw [Option.toList_none, ← points, update_eq_self, update_eq_self] at next
        exact next
      | creating none => simp [PointAgent.step, waits, slot] at taken
      | @recorded _ rp only =>
        simp only [PointAgent.step, waits, slot, Option.some.injEq] at taken
        obtain ⟨handlers, more, finished, all⟩ :=
          finish_eq (s := { s with queued := update s.queued w none }) task (.ok rp)
        rw [← taken, finished]
        have next := sound.advance handlers _ own (.replayed only all) (by simp) (dequeued w)
        rw [← points, ← slot, update_eq_self, SlotMap.set_cells] at next
        exact next

theorem Sound.creating {h : PointHolder} (held : (s.restorePoints.cells i).holder = some h) :
    s.restorePoints.index h.task.name = some i ∧ s.restorePoints.cells i = ⟨none, some h⟩ ∧
      s.written h.task.name = h.written.toList ∧ ∀ rp, .ok rp ∉ s.answers h.task.name := by
  have own := sound.holders held
  have old := sound.own own
  cases slot : s.restorePoints.cells i with
  | mk point holder =>
    rw [slot] at old held
    subst held
    generalize s.written h.task.name = points at old ⊢
    cases old with
    | creating none => exact ⟨own, rfl, rfl, none⟩

theorem Sound.write {rp : RestorePoint} (taken : s.step (.write i rp) = some t) :
    t.Sound := by
  simp only [PointAgent.step] at taken
  split at taken
  · rename_i task held
    cases taken
    obtain ⟨own, slot, points, none⟩ := sound.creating held
    have next := sound.advance s.handlers s.queued own (.creating (h := ⟨task, some rp⟩) none) (by simp)
      fun _ _ found => found
    rw [update_eq_self] at next
    simpa [record, setSlot, slot, points] using next
  · cases taken

theorem Sound.succeed (taken : s.step (.succeed i) = some t) : t.Sound := by
  simp only [PointAgent.step] at taken
  split at taken
  · rename_i task rp held
    cases taken
    obtain ⟨own, _, points, none⟩ := sound.creating held
    obtain ⟨handlers, more, finished, all⟩ := finish_eq (s := s.setSlot i { point := some rp }) task (.ok rp)
    have only : ∀ other, .ok other ∈ s.answers task.name → other = rp := fun other member =>
      absurd member (none other)
    have next := sound.advance handlers s.queued own (.replayed only all) (by simp) fun _ _ found => found
    rw [← Option.toList_some, ← points, update_eq_self] at next
    rw [finished]
    exact next
  · cases taken

theorem Sound.fail {late : Bool} {message : String}
    (clean : s.failsClean (.fail i late message) = true) (taken : s.step (.fail i late message) = some t) :
    t.Sound := by
  obtain ⟨h, held, rfl⟩ := Option.map_eq_some_iff.mp taken
  simp only [failsClean, held, Option.all_some, Bool.and_eq_true, Option.isNone_iff_eq_none, Bool.not_eq_true'] at clean
  obtain ⟨unwritten, rfl⟩ := clean
  obtain ⟨own, slot, points, none⟩ := sound.creating held
  rw [unwritten] at points
  obtain ⟨handlers, more, finished, all⟩ := finish_eq (s := s.setSlot i {}) h.task (.error (.internal message))
  have next := sound.advance handlers s.queued own ((PointSlot.Sound.idle none).refused all) (by simp)
    fun _ _ found => found
  rw [← Option.toList_none, ← points, update_eq_self] at next
  simpa [setSlot, unwritten, slot] using finished ▸ next

theorem Sound.next (allowed : s.failsClean c = true) (taken : s.step c = some t) : t.Sound := by
  cases c with
  | call name => exact sound.call taken
  | fetch w => exact sound.fetch taken
  | cancel w =>
    obtain ⟨_, -, rfl⟩ := Option.map_eq_some_iff.mp taken
    exact { sound with }
  | lock w => exact sound.lock taken
  | write i rp => exact sound.write taken
  | succeed i => exact sound.succeed taken
  | fail i late message => exact sound.fail allowed taken
  | timeout i late => cases allowed
  | land name rp => simp [PointAgent.step, sound.settled] at taken

end

theorem start_sound : Sound {} where
  slots _ := .absent (by simp)
  queued found := by cases found
  holders held := by cases held
  settled := rfl

end PointAgent

/-- Where errors are clean and nothing times out, at most one restore point is written under a
name, and every successful call for it returns that point. -/
theorem restore_point_single_flight {s : PointAgent}
    (reached : Runs.Under PointAgent.step PointAgent.failsClean {} s) (name : String) :
    (s.written name).length ≤ 1 ∧ ∀ rp, .ok rp ∈ s.answers name → s.written name = [rp] := by
  have sound : s.Sound := reached.invariant PointAgent.start_sound fun _ _ _ sound allowed taken =>
    sound.next allowed taken
  have own := sound.slots name
  generalize s.restorePoints.find name = slot, s.written name = points at own
  cases own with
  | absent none | idle none => exact ⟨by simp, fun rp member => absurd member (none rp)⟩
  | @creating _ h none => exact ⟨by cases h.written <;> simp, fun rp member => absurd member (none rp)⟩
  | recorded only => exact ⟨by simp, fun rp member => by rw [only rp member]⟩

/-- The first call fails, the caller of the second hangs up after the point is written, and the
third replays the point. -/
theorem restore_point_replayed : ∃ s, Runs.Under PointAgent.step PointAgent.failsClean {} s ∧
    .ok ⟨80, 3⟩ ∈ s.answers "barrier" ∧ s.written "barrier" = [⟨80, 3⟩] := by
  have ran : (Runs.exec PointAgent.step PointAgent.failsClean {}
      [.call "barrier", .call "barrier", .fetch 1, .fetch 0, .lock 0, .fail 0 false "refused", .lock 1, .write 0 ⟨80, 3⟩,
        .cancel 1, .succeed 0, .call "barrier", .fetch 2, .lock 2]).any
      (fun s => (s.answers "barrier").any fun r => r.toOption == some ⟨80, 3⟩) = true := by decide +kernel
  obtain ⟨s, reached, holds⟩ := Runs.Under.exists_of_exec ran
  obtain ⟨r, member, isOk⟩ := List.any_eq_true.mp holds
  have answered : .ok ⟨80, 3⟩ ∈ s.answers "barrier" := by
    cases r with
    | error e => cases isOk
    | ok rp =>
      simp only [Except.toOption, beq_iff_eq, Option.some.injEq] at isOk
      exact isOk ▸ member
  exact ⟨s, reached, answered, (restore_point_single_flight reached "barrier").2 _ answered⟩

end PgShard.Agent
