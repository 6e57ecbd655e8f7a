import Mathlib

/-! Sorting by a key, and lists shuffled with their items changed in place. -/

namespace KeySort

variable {α β κ : Type*} [LinearOrder κ] (key : α → κ) [DecidableRel fun a b => key a ≤ key b]

instance total_key : Std.Total fun a b : α => key a ≤ key b := ⟨fun a b => le_total (key a) (key b)⟩

instance trans_key : IsTrans α fun a b => key a ≤ key b := ⟨fun _ _ _ first second => le_trans first second⟩

theorem sorted (l : List α) : (l.insertionSort fun a b => key a ≤ key b).Pairwise fun a b => key a ≤ key b :=
  List.pairwise_insertionSort _ l

theorem eq_of_perm {l m : List α} (perm : l.Perm m) (apart : ∀ x ∈ l, ∀ y ∈ l, key x = key y → x = y) :
    (l.insertionSort fun a b => key a ≤ key b) = m.insertionSort fun a b => key a ≤ key b := by
  have left := List.perm_insertionSort (fun a b => key a ≤ key b) l
  have right := List.perm_insertionSort (fun a b => key a ≤ key b) m
  refine List.Perm.eq_of_pairwise ?_ (sorted key l) (sorted key m) (left.trans (perm.trans right.symm))
  intro x y inLeft inRight before after
  exact apart x (left.subset inLeft) y (perm.symm.subset (right.subset inRight)) (le_antisymm before after)

theorem eq_of_nodup {l m : List α} (perm : l.Perm m) (distinct : (l.map key).Nodup) :
    (l.insertionSort fun a b => key a ≤ key b) = m.insertionSort fun a b => key a ≤ key b :=
  eq_of_perm key perm fun _ inside _ inside' same => List.inj_on_of_nodup_map distinct inside inside' same

theorem map_eq {f : α → α} (keeps : ∀ a, key (f a) = key a) (l : List α) :
    (l.insertionSort fun a b => key a ≤ key b).map f = (l.map f).insertionSort fun a b => key a ≤ key b :=
  List.map_insertionSort _ _ f l fun a _ b _ => by rw [keeps, keeps]

/-- The items of a list in another order, each of them changed as `R` allows. -/
def Shuffled (R : α → α → Prop) (l m : List α) : Prop :=
  ∃ k, l.Perm k ∧ List.Forall₂ R k m

theorem Shuffled.symm {R : α → α → Prop} (symmetric : ∀ a b, R a b → R b a) {l m : List α} (shuffled : Shuffled R l m) :
    Shuffled R m l := by
  obtain ⟨k, perm, related⟩ := shuffled
  obtain ⟨k', related', perm'⟩ := List.perm_comp_forall₂ perm related
  exact ⟨k', perm'.symm, (related'.imp symmetric).flip⟩

theorem Shuffled.mem {R : α → α → Prop} {l m : List α} (shuffled : Shuffled R l m) {b : α} (member : b ∈ m) :
    ∃ a ∈ l, R a b := by
  obtain ⟨k, perm, related⟩ := shuffled
  have found : ∃ a ∈ k, R a b := by
    clear perm
    induction related with
    | nil => cases member
    | cons here _ ih =>
      rcases List.mem_cons.mp member with rfl | later
      · exact ⟨_, List.mem_cons_self, here⟩
      · obtain ⟨a, inside, changed⟩ := ih later
        exact ⟨a, List.mem_cons_of_mem _ inside, changed⟩
  obtain ⟨a, inside, changed⟩ := found
  exact ⟨a, perm.symm.subset inside, changed⟩

theorem Shuffled.flatMap {R : α → α → Prop} {l m : List α} (shuffled : Shuffled R l m) {f : α → List β}
    (keeps : ∀ a ∈ l, ∀ b, R a b → (f a).Perm (f b)) : (l.flatMap f).Perm (m.flatMap f) := by
  obtain ⟨k, perm, related⟩ := shuffled
  refine (perm.flatMap_right f).trans ?_
  have inside : ∀ a ∈ k, a ∈ l := fun a member => perm.symm.subset member
  clear perm
  induction related with
  | nil => exact .refl _
  | cons here _ ih =>
    rw [List.flatMap_cons, List.flatMap_cons]
    exact (keeps _ (inside _ List.mem_cons_self) _ here).append
      (ih fun a member => inside a (List.mem_cons_of_mem _ member))

theorem Shuffled.map {R : α → α → Prop} {l m : List α} (shuffled : Shuffled R l m) {f : α → β}
    (keeps : ∀ a ∈ l, ∀ b, R a b → f a = f b) : (l.map f).Perm (m.map f) := by
  rw [List.map_eq_flatMap, List.map_eq_flatMap]
  exact shuffled.flatMap fun a member b changed => .of_eq (by rw [keeps a member b changed])

end KeySort
