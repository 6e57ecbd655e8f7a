import Mathlib

/-! A store that keeps one object under a name, with optimistic concurrency: a
write is accepted only from a client that holds the latest version. -/

namespace Versioned

variable {α : Type}

/-- An object as a client holds it, with the version it was read at. -/
structure Copy (α : Type) where
  version : Nat
  obj : α
  deriving DecidableEq

/-- Everything the store has held under one name, oldest first; `none` stands
for the object's absence. The index of an entry is its version. -/
structure History (α : Type) where
  entries : List (Option α) := []
  deriving DecidableEq

namespace History

variable {h : History α} {i : Nat} {c : Copy α} {a : α} {stored : Option α}

def entry (h : History α) (i : Nat) : Option α :=
  h.entries[i]?.join

def size (h : History α) : Nat :=
  h.entries.length

def current (h : History α) : Option α :=
  h.entry (h.size - 1)

def push (h : History α) (stored : Option α) : History α :=
  ⟨h.entries ++ [stored]⟩

/-- A read that sees version `i`, which may be an old one. -/
def read (h : History α) (i : Nat) : Option (Copy α) :=
  (h.entry i).map (Copy.mk i)

def latest (h : History α) : Option (Copy α) :=
  h.read (h.size - 1)

/-- The copy is what the store held at its version. -/
def Genuine (h : History α) (c : Copy α) : Prop :=
  h.entry c.version = some c.obj

/-- Whether a write based on version `i` is accepted. -/
def accepts (h : History α) (i : Nat) : Bool :=
  i + 1 == h.size

theorem read_genuine (found : h.read i = some c) : h.Genuine c := by
  obtain ⟨a, stored, rfl⟩ := Option.map_eq_some_iff.mp found
  exact stored

theorem latest_current (found : h.latest = some c) : h.current = some c.obj := by
  obtain ⟨a, stored, rfl⟩ := Option.map_eq_some_iff.mp found
  exact stored

theorem latest_none (absent : h.latest = none) : h.current = none :=
  Option.map_eq_none_iff.mp absent

@[simp] theorem size_push : (h.push stored).size = h.size + 1 := by
  simp [size, push]

@[simp] theorem current_push : (h.push stored).current = stored := by
  simp [current, entry, push, size]

theorem lt_of_entry (found : h.entry i = some a) : i < h.size := by
  by_contra beyond
  simp [entry, List.getElem?_eq_none (not_lt.mp beyond)] at found

theorem mem_of_entry (found : h.entry i = some a) : some a ∈ h.entries :=
  List.mem_of_getElem? (Option.join_eq_some_iff.mp found)

theorem entry_push_of_lt (old : i < h.size) : (h.push stored).entry i = h.entry i := by
  simp [entry, push, List.getElem?_append_left old]

theorem entry_push (found : h.entry i = some a) : (h.push stored).entry i = some a := by
  rw [entry_push_of_lt (lt_of_entry found), found]

theorem entry_push_cases (found : (h.push stored).entry i = some a) :
    h.entry i = some a ∨ i = h.size ∧ stored = some a := by
  rcases lt_trichotomy i h.size with old | rfl | beyond
  · rw [entry_push_of_lt old] at found
    exact .inl found
  · exact .inr ⟨rfl, by simpa [entry, push, size] using found⟩
  · have bound := lt_of_entry found
    simp at bound
    omega

section Named

variable {stores : String → History α} {n m : String}

theorem entry_store (found : (stores m).entry i = some a) :
    (Function.update stores n ((stores n).push stored) m).entry i = some a := by
  by_cases same : m = n
  · subst same
    rw [Function.update_self]
    exact entry_push found
  · rwa [Function.update_of_ne same]

theorem entry_store_cases (found : (Function.update stores n ((stores n).push stored) m).entry i = some a) :
    (stores m).entry i = some a ∨ m = n ∧ i = (stores n).size ∧ stored = some a := by
  by_cases same : m = n
  · subst same
    rw [Function.update_self] at found
    exact (entry_push_cases found).imp_right fun new => ⟨rfl, new⟩
  · rw [Function.update_of_ne same] at found
    exact .inl found

end Named

theorem exists_entry_push {property : α → Prop} :
    (∃ i a, (h.push stored).entry i = some a ∧ property a) ↔
      (∃ i a, h.entry i = some a ∧ property a) ∨ ∃ a, stored = some a ∧ property a := by
  constructor
  · rintro ⟨i, a, found, holds⟩
    rcases entry_push_cases found with old | ⟨-, new⟩
    · exact .inl ⟨i, a, old, holds⟩
    · exact .inr ⟨a, new, holds⟩
  · rintro (⟨i, a, found, holds⟩ | ⟨a, rfl, holds⟩)
    · exact ⟨i, a, entry_push found, holds⟩
    · exact ⟨h.size, a, by simp [entry, push, size], holds⟩

theorem Genuine.push (genuine : h.Genuine c) : (h.push stored).Genuine c :=
  entry_push genuine

theorem genuine_push : (h.push (some a)).Genuine ⟨h.size, a⟩ := by
  simp [Genuine, entry, History.push, size]

theorem Genuine.current (genuine : h.Genuine c) (accepted : h.accepts c.version = true) :
    h.current = some c.obj := by
  have last : h.size - 1 = c.version := by
    have := beq_iff_eq.mp accepted
    omega
  rw [History.current, last]
  exact genuine

end History

end Versioned
