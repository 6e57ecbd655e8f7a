import PgShard.Lib.Versioned

/-! Numbered terms of an office, and histories in which each term fences the ones
before it. -/

namespace Terms

open Versioned

variable {α β : Type}

/-- A term: the number it fences older ones with, and who holds it, if anyone does. -/
structure Term (β : Type) where
  number : Nat
  holder : Option β
  deriving DecidableEq

/-- The term `b` may come after `a`: under a new number anyone may hold it, under the
same number nobody else. -/
def Follows (a b : Term β) : Prop :=
  a.number < b.number ∨ a.number = b.number ∧ (b.holder = none ∨ b.holder = a.holder)

namespace Follows

variable {a b c : Term β} {x y : β}

theorem refl : Follows a a :=
  .inr ⟨rfl, .inr rfl⟩

theorem trans (first : Follows a b) (second : Follows b c) : Follows a c := by
  rcases first with less | ⟨same, holder⟩
  · rcases second with less' | ⟨same', -⟩
    · exact .inl (less.trans less')
    · exact .inl (same' ▸ less)
  · rcases second with less' | ⟨same', holder'⟩
    · exact .inl (same.trans_lt less')
    · refine .inr ⟨same.trans same', ?_⟩
      rcases holder' with vacant | kept
      · exact .inl vacant
      · exact holder.imp kept.trans kept.trans

theorem number_le (follows : Follows a b) : a.number ≤ b.number :=
  follows.elim le_of_lt fun same => same.1.le

theorem number_lt (follows : Follows a b) (holds : b.holder = some x) (new : a.holder ≠ some x) :
    a.number < b.number := by
  rcases follows with less | ⟨-, vacant | kept⟩
  · exact less
  · rw [vacant] at holds
    cases holds
  · exact absurd (kept.symm.trans holds) new

theorem holder_eq (follows : Follows a b) (same : a.number = b.number) (first : a.holder = some x)
    (second : b.holder = some y) : x = y := by
  by_contra different
  have := follows.number_lt second fun other => different (Option.some.inj (first.symm.trans other))
  omega

end Follows

/-- The terms that a history has had, each followed by all later ones. -/
def Ordered (term : α → Term β) (h : History α) : Prop :=
  ∀ i j a b, i ≤ j → h.entry i = some a → h.entry j = some b → Follows (term a) (term b)

namespace Ordered

variable {term : α → Term β} {h : History α} {a b : α} {i j : Nat} {x y : β}

theorem start : Ordered term ⟨[some a]⟩ := by
  intro i j b c _ first second
  have single : ∀ {k d}, (⟨[some a]⟩ : History α).entry k = some d → d = a := by
    intro k d found
    have := History.mem_of_entry found
    simpa using this
  rw [single first, single second]
  exact .refl

theorem push (ordered : Ordered term h) (latest : h.current = some a) (follows : Follows (term a) (term b)) :
    Ordered term (h.push (some b)) := by
  intro i j c d order first second
  rcases History.entry_push_cases second with old | ⟨rfl, new⟩
  · rw [History.entry_push_of_lt (order.trans_lt (History.lt_of_entry old))] at first
    exact ordered i j c d order first old
  · obtain rfl := Option.some.inj new
    rcases History.entry_push_cases first with old | ⟨-, same⟩
    · have bound := History.lt_of_entry old
      exact (ordered i (h.size - 1) c a (by omega) old latest).trans follows
    · rw [Option.some.inj same]
      exact .refl

theorem remove (ordered : Ordered term h) : Ordered term (h.push none) := by
  intro i j c d order first second
  rcases History.entry_push_cases second with old | ⟨-, new⟩
  · rw [History.entry_push_of_lt (order.trans_lt (History.lt_of_entry old))] at first
    exact ordered i j c d order first old
  · cases new

theorem holder_eq (ordered : Ordered term h) (first : h.entry i = some a) (second : h.entry j = some b)
    (same : (term a).number = (term b).number) (holds : (term a).holder = some x) (holds' : (term b).holder = some y) :
    x = y := by
  rcases le_total i j with order | order
  · exact (ordered i j a b order first second).holder_eq same holds holds'
  · exact ((ordered j i b a order second first).holder_eq same.symm holds' holds).symm

end Ordered

end Terms
