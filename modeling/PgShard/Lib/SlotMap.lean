import Mathlib

/-! A map from keys to shared cells, each fetched by its number. -/

/-- The cells, and the number of the cell of each key that has one. -/
structure SlotMap (Key Cell : Type*) where
  index : Key → Option Nat
  cells : Nat → Cell
  size : Nat
  bound : ∀ k i, index k = some i → i < size
  separate : ∀ j k i, index j = some i → index k = some i → j = k

namespace SlotMap

open Function (update update_self update_of_ne)

variable {Key Cell : Type*}

def empty (fresh : Cell) : SlotMap Key Cell where
  index _ := none
  cells _ := fresh
  size := 0
  bound _ _ found := by cases found
  separate _ _ _ found := by cases found

def find (m : SlotMap Key Cell) (k : Key) : Option Cell := (m.index k).map m.cells

def set (m : SlotMap Key Cell) (i : Nat) (cell : Cell) : SlotMap Key Cell :=
  { m with cells := update m.cells i cell }

@[simp]
theorem set_index (m : SlotMap Key Cell) (i : Nat) (cell : Cell) : (m.set i cell).index = m.index := rfl

@[simp]
theorem set_cells (m : SlotMap Key Cell) (i : Nat) : m.set i (m.cells i) = m := by
  simp [set]

theorem find_of_index {m : SlotMap Key Cell} {k : Key} {i : Nat} (own : m.index k = some i) :
    m.find k = some (m.cells i) := by
  simp [find, own]

theorem find_set {m : SlotMap Key Cell} {k : Key} {i : Nat} (own : m.index k = some i) (cell : Cell) :
    (m.set i cell).find k = some cell := by
  simp [find, set, own]

theorem find_set_of_ne {m : SlotMap Key Cell} {j k : Key} {i : Nat} (own : m.index k = some i) (differs : j ≠ k)
    (cell : Cell) : (m.set i cell).find j = m.find j := by
  cases found : m.index j with
  | none => simp [find, found]
  | some n =>
    have apart : n ≠ i := fun same => differs (m.separate j k i (same ▸ found) own)
    simp [find, set, found, apart]

section Entry

variable [DecidableEq Key]

/-- Fetch the cell of a key; a key without one gets a fresh cell. -/
def entry (m : SlotMap Key Cell) (k : Key) (fresh : Cell) : SlotMap Key Cell × Nat :=
  match found : m.index k with
  | some i => (m, i)
  | none =>
    ({ index := update m.index k (some m.size)
       cells := update m.cells m.size fresh
       size := m.size + 1
       bound := by
         intro j i at_
         by_cases same : j = k
         · subst same
           simp only [update_self, Option.some.injEq] at at_
           omega
         · rw [update_of_ne same] at at_
           exact (m.bound j i at_).trans (Nat.lt_succ_self _)
       separate := by
         intro j l i first second
         by_cases left : j = k <;> by_cases right : l = k
         · exact left.trans right.symm
         · subst left
           rw [update_self, Option.some.injEq] at first
           rw [update_of_ne right] at second
           exact absurd (m.bound l i second) (by omega)
         · subst right
           rw [update_self, Option.some.injEq] at second
           rw [update_of_ne left] at first
           exact absurd (m.bound j i first) (by omega)
         · rw [update_of_ne left] at first
           rw [update_of_ne right] at second
           exact m.separate j l i first second }, m.size)

theorem entry_cases (m : SlotMap Key Cell) (k : Key) (fresh : Cell) :
    (∃ i, m.index k = some i ∧ m.entry k fresh = (m, i)) ∨
    (m.index k = none ∧ (m.entry k fresh).2 = m.size ∧ (m.entry k fresh).1.index = update m.index k (some m.size) ∧
      (m.entry k fresh).1.cells = update m.cells m.size fresh) := by
  unfold entry
  split
  · exact .inl ⟨_, ‹_›, rfl⟩
  · exact .inr ⟨‹_›, rfl, rfl, rfl⟩

variable {m : SlotMap Key Cell} {k : Key} {fresh : Cell}

theorem entry_index : (m.entry k fresh).1.index k = some (m.entry k fresh).2 := by
  rcases entry_cases m k fresh with ⟨i, own, same⟩ | ⟨-, number, index, -⟩
  · rw [same]
    exact own
  · rw [index, number, update_self]

theorem entry_keeps {j : Key} {i : Nat} (own : m.index j = some i) : (m.entry k fresh).1.index j = some i := by
  rcases entry_cases m k fresh with ⟨_, -, same⟩ | ⟨absent, -, index, -⟩
  · rwa [same]
  · have differs : j ≠ k := by
      rintro rfl
      cases own.symm.trans absent
    rwa [index, update_of_ne differs]

theorem find_entry : (m.entry k fresh).1.find k = some ((m.find k).getD fresh) := by
  rcases entry_cases m k fresh with ⟨i, own, same⟩ | ⟨absent, -, index, cells⟩
  · simp [same, find, own]
  · simp [find, index, cells, absent]

theorem find_entry_of_ne {j : Key} (differs : j ≠ k) : (m.entry k fresh).1.find j = m.find j := by
  rcases entry_cases m k fresh with ⟨i, own, same⟩ | ⟨absent, -, index, cells⟩
  · rw [same]
  · cases found : m.index j with
    | none => simp [find, index, update_of_ne differs, found]
    | some n =>
      have below : n ≠ m.size := (m.bound j n found).ne
      simp [find, index, cells, update_of_ne differs, found, below]

end Entry

end SlotMap
