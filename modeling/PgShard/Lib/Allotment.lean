import Mathlib

/-! Handing out the members of granted sets: every holder has a share, shares do not
overlap, and what has been spent is in nobody's share. -/

structure Allotment (Holder α : Type*) where
  granted : Set α
  share : Holder → Set α
  spent : List α

namespace Allotment

variable {Holder α : Type*} {a : Allotment Holder α} {share : Holder → Set α}

/-- Nothing is in two shares, spent twice, or spent and in a share. -/
structure Fair (a : Allotment Holder α) : Prop where
  apart : ∀ {i j x}, x ∈ a.share i → x ∈ a.share j → i = j
  within : ∀ {i x}, x ∈ a.share i → x ∈ a.granted
  unspent : ∀ {i x}, x ∈ a.share i → x ∉ a.spent
  spent_within : ∀ {x}, x ∈ a.spent → x ∈ a.granted
  once : a.spent.Nodup

theorem fair_empty (nothing : ∀ i, share i = ∅) : Fair ⟨∅, share, []⟩ where
  apart := fun {i} _ _ member => by simp [nothing i] at member
  within := fun {i} _ member => by simp [nothing i] at member
  unspent := fun _ => List.not_mem_nil
  spent_within := fun member => absurd member List.not_mem_nil
  once := List.nodup_nil

theorem Fair.rearrange (fair : a.Fair) {source : Holder → Holder} (injective : source.Injective)
    (smaller : share ≤ a.share ∘ source) : Fair { a with share } where
  apart := fun first second => injective (fair.apart (smaller _ first) (smaller _ second))
  within := fun member => fair.within (smaller _ member)
  unspent := fun member => fair.unspent (smaller _ member)
  spent_within := fair.spent_within
  once := fair.once

theorem Fair.shrink (fair : a.Fair) (smaller : share ≤ a.share) : Fair { a with share } :=
  fair.rearrange Function.injective_id smaller

theorem Fair.grant (fair : a.Fair) {i : Holder} {block : Set α} (fresh : Disjoint block a.granted)
    (own : share i ⊆ block) (smaller : ∀ j, j ≠ i → share j ⊆ a.share j) :
    Fair { a with granted := block ∪ a.granted, share } := by
  have origin : ∀ {j x}, x ∈ share j → (j = i ∧ x ∈ block) ∨ x ∈ a.share j := by
    intro j x member
    by_cases here : j = i
    · subst here
      exact .inl ⟨rfl, own member⟩
    · exact .inr (smaller j here member)
  have new : ∀ {x}, x ∈ block → x ∉ a.granted := fun inside => Set.disjoint_left.mp fresh inside
  refine ⟨fun {j k x} first second => ?_, fun {j x} member => ?_, fun {j x} member spent => ?_,
    fun spent => .inr (fair.spent_within spent), fair.once⟩
  · rcases origin first with ⟨rfl, inside⟩ | old <;> rcases origin second with ⟨rfl, inside'⟩ | old'
    · rfl
    · exact absurd (fair.within old') (new inside)
    · exact absurd (fair.within old) (new inside')
    · exact fair.apart old old'
  · rcases origin member with ⟨-, inside⟩ | old
    · exact .inl inside
    · exact .inr (fair.within old)
  · rcases origin member with ⟨-, inside⟩ | old
    · exact new inside (fair.spent_within spent)
    · exact fair.unspent old spent

theorem Fair.spend (fair : a.Fair) {i : Holder} {x : α} (member : x ∈ a.share i) (gone : x ∉ share i)
    (smaller : share ≤ a.share) : Fair { a with share, spent := x :: a.spent } := by
  obtain ⟨apart, within, unspent, spent_within, once⟩ := fair.shrink smaller
  refine ⟨apart, within, fun {j y} inside spent => ?_, fun {y} spent => ?_, List.nodup_cons.mpr ⟨fair.unspent member, once⟩⟩
  · rcases List.mem_cons.mp spent with rfl | spent
    · exact gone (fair.apart (smaller _ inside) member ▸ inside)
    · exact unspent inside spent
  · rcases List.mem_cons.mp spent with rfl | spent
    · exact fair.within member
    · exact spent_within spent

end Allotment
