import PgShard.Seq.Unique

/-! The reservation backend of global sequences: the rows of `pgshard.sequences`, from which the routers reserve. -/

namespace PgShard.Seq

/-- A row of `pgshard.sequences`, both columns of type bigint. -/
structure SequenceRow where
  nextId : Int
  blockSize : Int

/-- `RESERVE_SQL` on a row. A sum that is no bigint fails the statement, and the row stays. -/
def SequenceRow.advance (row : SequenceRow) : Option SequenceRow :=
  (checkedAdd row.nextId (if 0 < row.blockSize then row.blockSize else 0)).map fun nextId => { row with nextId }

def reserve (sequence : String) : Option SequenceRow → Answer
  | none => .failed (.unknownSequence sequence)
  | some row =>
    if row.blockSize ≤ 0 then
      let name := Quote.debug sequence
      let size := row.blockSize
      .failed (.backend s!"sequence {name} has a non-positive block_size {size}")
    else .granted (row.nextId - row.blockSize) row.blockSize

structure Service where
  cache : State := {}
  rows : String → Option SequenceRow

def Service.setRow (v : Service) (sequence : String) (row : SequenceRow) : Service :=
  { v with rows := Function.update v.rows sequence (some row) }

inductive Event
  | cache (choice : Choice)
  | reserve (c : Client)
  | stray (sequence : String)
  | configure (sequence : String) (blockSize : Int)
  | register (sequence : String) (row : SequenceRow)

/-- A block is granted by `reserve` alone; a statement that fails, or whose connection breaks, is a failed answer of
`cache`. One whose caller has given up may still be committed, at any time after: `stray`. -/
def Service.step (v : Service) : Event → Option Service
  | .cache choice =>
    match choice with
    | .answer _ (.granted _ _) => none
    | _ => (Seq.step v.cache choice).map fun cache => { v with cache }
  | .reserve c =>
    match v.cache.threads c with
    | .reserving sequence =>
      match v.rows sequence with
      | none => (Seq.step v.cache (.answer c (Seq.reserve sequence none))).map fun cache => { v with cache }
      | some row => row.advance.bind fun row =>
          (Seq.step v.cache (.answer c (Seq.reserve sequence (some row)))).map fun cache => { v with cache }.setRow sequence row
    | _ => none
  | .stray sequence => ((v.rows sequence).bind SequenceRow.advance).map (v.setRow sequence)
  | .configure sequence blockSize => (v.rows sequence).map fun row => v.setRow sequence { row with blockSize }
  | .register sequence row => if (v.rows sequence).isNone then some (v.setRow sequence row) else none

variable {s s' : State} {v v' : Service} {row row' : SequenceRow} {sequence : String} {c : Client} {choice : Choice}

theorem SequenceRow.advance_eq (advanced : row.advance = some row') :
    row'.blockSize = row.blockSize ∧ row'.nextId = row.nextId + max row.blockSize 0 := by
  obtain ⟨nextId, sum, rfl⟩ := Option.map_eq_some_iff.mp advanced
  unfold checkedAdd at sum
  split_ifs at sum with positive
  · cases sum
    exact ⟨rfl, congrArg (row.nextId + ·) (max_eq_left positive.le).symm⟩
  · cases sum
    exact ⟨rfl, congrArg (row.nextId + ·) (max_eq_right (not_lt.mp positive)).symm⟩

/-- A step of the cache other than a grant reserves nothing. -/
theorem reserved_kept (other : ∀ c start size, choice ≠ .answer c (.granted start size))
    (taken : step s choice = some s') : disjointGrants s choice = true ∧ s'.reserved = s.reserved := by
  cases choice with
  | call c sequence | wake c =>
    simp only [step] at taken
    split at taken
    · cases taken
      exact ⟨rfl, rfl⟩
    · cases taken
  | lock c =>
    refine ⟨rfl, ?_⟩
    simp only [step] at taken
    split at taken
    · split at taken
      all_goals
        cases taken
        rfl
    · obtain ⟨entry, -, rfl⟩ := Option.map_eq_some_iff.mp taken
      split
      · rfl
      · rfl
    · obtain ⟨entry, -, rfl⟩ := Option.map_eq_some_iff.mp taken
      rfl
    · cases taken
  | answer c answer =>
    simp only [step] at taken
    split at taken
    · cases answer with
      | granted start size => exact absurd rfl (other c start size)
      | failed e | panicked =>
        cases taken
        exact ⟨rfl, rfl⟩
    · cases taken

/-- Every block granted ends at or below the row, and each starts where the ones before it have ended. -/
structure Backed (v : Service) : Prop where
  reached : Reached v.cache
  below : ∀ {sequence b}, b ∈ v.cache.reserved sequence →
    0 < b.2 ∧ ∃ row, v.rows sequence = some row ∧ b.1 + b.2 ≤ row.nextId
  ordered : ∀ sequence, (v.cache.reserved sequence).Pairwise fun later earlier => earlier.1 + earlier.2 ≤ later.1

namespace Backed

/-- A row only moves up. -/
theorem setRow (backed : Backed v) (up : ∀ old, v.rows sequence = some old → old.nextId ≤ row.nextId) :
    Backed (v.setRow sequence row) where
  reached := backed.reached
  below := by
    intro name b member
    obtain ⟨positive, old, found, ends⟩ := backed.below member
    refine ⟨positive, ?_⟩
    by_cases same : name = sequence
    · subst same
      exact ⟨row, Function.update_self .., ends.trans (up old found)⟩
    · exact ⟨old, (Function.update_of_ne same ..).trans found, ends⟩
  ordered := backed.ordered

theorem cache (backed : Backed v) (other : ∀ c start size, choice ≠ .answer c (.granted start size))
    (taken : Seq.step v.cache choice = some s') : Backed { v with cache := s' } := by
  obtain ⟨fits, kept⟩ := reserved_kept other taken
  refine ⟨.next backed.reached fits taken, ?_, ?_⟩
  · intro sequence b member
    exact backed.below (kept ▸ member)
  · intro sequence
    exact kept ▸ backed.ordered sequence

/-- A block that starts where all others of its sequence have ended. -/
theorem grant (backed : Backed v) {start size : Int} (was : v.cache.threads c = .reserving sequence)
    (found : v.rows sequence = some row) (positive : 0 < size)
    (ends : ∀ b ∈ v.cache.reserved sequence, b.1 + b.2 ≤ start) (top : start + size ≤ row.nextId)
    (taken : Seq.step v.cache (.answer c (.granted start size)) = some s') : Backed { v with cache := s' } := by
  have fits : disjointGrants v.cache (.answer c (.granted start size)) = true := by
    simp only [disjointGrants, was]
    simpa [positive] using fun a b member => .inr (ends (a, b) member)
  have reached : Reached s' := .next backed.reached fits taken
  simp only [Seq.step, was] at taken
  cases taken
  refine ⟨reached, ?_, ?_⟩
  · intro name b member
    by_cases same : name = sequence
    · subst same
      simp only [State.setThread, State.grant, Function.update_self, List.mem_cons] at member
      rcases member with rfl | member
      · exact ⟨positive, row, found, top⟩
      · exact backed.below member
    · exact backed.below (by simpa [State.setThread, State.grant, same] using member)
  · intro name
    by_cases same : name = sequence
    · subst same
      simpa [State.setThread, State.grant] using ⟨fun a b => ends (a, b), backed.ordered name⟩
    · simpa [State.setThread, State.grant, same] using backed.ordered name

theorem reserve (backed : Backed v) (was : v.cache.threads c = .reserving sequence) (found : v.rows sequence = some row)
    (advanced : row.advance = some row')
    (taken : Seq.step v.cache (.answer c (Seq.reserve sequence (some row'))) = some s') :
    Backed ({ v with cache := s' }.setRow sequence row') := by
  obtain ⟨size, moved⟩ := SequenceRow.advance_eq advanced
  have raised : Backed (v.setRow sequence row') := by
    refine backed.setRow fun old same => ?_
    cases found.symm.trans same
    omega
  simp only [Seq.reserve] at taken
  split_ifs at taken with bad
  · exact raised.cache (by rintro _ _ _ ⟨⟩) taken
  · refine raised.grant was (Function.update_self ..) (not_le.mp bad) (fun b member => ?_) (by omega) taken
    obtain ⟨-, old, same, ends⟩ := backed.below member
    cases found.symm.trans same
    omega

theorem step (backed : Backed v) {event : Event} (taken : v.step event = some v') : Backed v' := by
  cases event with
  | cache choice =>
    simp only [Service.step] at taken
    split at taken
    · cases taken
    · rename_i other
      obtain ⟨s', moved, rfl⟩ := Option.map_eq_some_iff.mp taken
      exact backed.cache (fun c start size same => other c start size same) moved
  | reserve c =>
    simp only [Service.step] at taken
    split at taken
    · rename_i sequence was
      split at taken
      · obtain ⟨s', moved, rfl⟩ := Option.map_eq_some_iff.mp taken
        exact backed.cache (by rintro _ _ _ ⟨⟩) moved
      · rename_i row found
        obtain ⟨row', advanced, taken⟩ := Option.bind_eq_some_iff.mp taken
        obtain ⟨s', moved, rfl⟩ := Option.map_eq_some_iff.mp taken
        exact backed.reserve was found advanced moved
    · cases taken
  | stray sequence =>
    obtain ⟨row', moved, rfl⟩ := Option.map_eq_some_iff.mp taken
    obtain ⟨row, found, advanced⟩ := Option.bind_eq_some_iff.mp moved
    refine backed.setRow fun old same => ?_
    cases found.symm.trans same
    have := SequenceRow.advance_eq advanced
    omega
  | configure sequence blockSize =>
    obtain ⟨row, found, rfl⟩ := Option.map_eq_some_iff.mp taken
    refine backed.setRow fun old same => ?_
    cases found.symm.trans same
    exact le_rfl
  | register sequence row =>
    simp only [Service.step] at taken
    split_ifs at taken with absent
    cases taken
    refine backed.setRow fun old same => ?_
    rw [same] at absent
    cases absent

end Backed

/-- Whatever the rows are set to and whichever answers are lost: blocks are reserved upwards and end at or below
`next_id`, and no id is handed out twice. -/
theorem store_ids_unique {rows : String → Option SequenceRow}
    (run : Runs.Under Service.step (fun _ _ => true) { rows } v) (sequence : String) :
    (v.cache.returned sequence).Nodup ∧
    (v.cache.reserved sequence).Pairwise (fun later earlier => earlier.1 + earlier.2 ≤ later.1) ∧
    (∀ b ∈ v.cache.reserved sequence, 0 < b.2 ∧ ∃ row, v.rows sequence = some row ∧ b.1 + b.2 ≤ row.nextId) ∧
    ∀ id ∈ v.cache.returned sequence, ∃ b ∈ v.cache.reserved sequence, b.1 ≤ id ∧ id < b.1 + b.2 := by
  have backed : Backed v := by
    induction run with
    | start => exact ⟨.start, nofun, fun _ => .nil⟩
    | next _ _ taken ih => exact ih.step taken
  have fair := backed.reached.fair sequence
  exact ⟨fair.once, backed.ordered sequence, fun b member => backed.below member, fun id member => fair.spent_within member⟩

/-- A row with a bad block size is reported and repaired; then one router gets a block, and another loses one and gets
the next. -/
def repaired : List Event :=
  [.register "orders" ⟨1, -5⟩, .cache (.call ⟨0, 0⟩ "orders"), .cache (.lock ⟨0, 0⟩), .reserve ⟨0, 0⟩,
    .cache (.lock ⟨0, 0⟩), .configure "orders" 10, .cache (.call ⟨0, 0⟩ "orders"), .cache (.lock ⟨0, 0⟩),
    .reserve ⟨0, 0⟩, .cache (.lock ⟨0, 0⟩), .cache (.call ⟨1, 0⟩ "orders"), .cache (.lock ⟨1, 0⟩),
    .cache (.answer ⟨1, 0⟩ (.failed (.backend "connection closed"))), .cache (.lock ⟨1, 0⟩), .stray "orders",
    .cache (.call ⟨1, 0⟩ "orders"), .cache (.lock ⟨1, 0⟩), .reserve ⟨1, 0⟩, .cache (.lock ⟨1, 0⟩)]

theorem store_ids_unique_repaired : ∃ v, Runs.Under Service.step (fun _ _ => true) { rows := fun _ => none } v ∧
    v.cache.returned "orders" = [21, 1] ∧ (v.cache.returned "orders").Nodup := by
  have ran : (Runs.exec Service.step (fun _ _ => true) { rows := fun _ => none } repaired).any
      (fun v => v.cache.returned "orders" == [21, 1]) = true := by decide +kernel
  obtain ⟨v, run, returned⟩ := Runs.Under.exists_of_exec ran
  exact ⟨v, run, beq_iff_eq.mp returned, (store_ids_unique run "orders").1⟩

end PgShard.Seq
