import Mathlib

/-! Computations that may fail: what a success says about their parts. -/

namespace Checked

variable {ε α β σ : Type}

theorem bind_ok {x : Except ε α} {f : α → Except ε β} {b : β} (run : (x >>= f) = .ok b) :
    ∃ a, x = .ok a ∧ f a = .ok b := by
  cases x with
  | error e => cases run
  | ok a => exact ⟨a, rfl, run⟩

theorem map_ok {x : Except ε α} {f : α → β} {b : β} (run : x.map f = .ok b) : ∃ a, x = .ok a ∧ f a = b := by
  cases x with
  | error e => cases run
  | ok a => exact ⟨a, rfl, Except.ok.inj run⟩

theorem toOption_bind {x : Except ε α} {f : α → Except ε β} :
    (x >>= f).toOption = x.toOption.bind fun a => (f a).toOption := by
  cases x <;> rfl

theorem toOption_some {x : Except ε α} {a : α} : x.toOption = some a ↔ x = .ok a := by
  cases x <;> simp [Except.toOption]

theorem toOption_eq {δ : Type} {x : Except ε α} {y : Except δ α} (same : ∀ a, x = .ok a ↔ y = .ok a) :
    x.toOption = y.toOption := by
  cases x with
  | ok a =>
    rw [(same a).mp rfl]
    rfl
  | error e =>
    cases y with
    | ok a => cases (same a).mpr rfl
    | error f => rfl

theorem mapM_ok {f : α → Except ε β} {g : α → β} {items : List α} (runs : ∀ a ∈ items, f a = .ok (g a)) :
    items.mapM f = .ok (items.map g) := by
  induction items with
  | nil => rfl
  | cons a rest ih =>
    rw [List.forall_mem_cons] at runs
    rw [List.mapM_cons, runs.1, ih runs.2]
    rfl

theorem mapM_ok_iff {f : α → Except ε β} {xs : List α} {ys : List β} : xs.mapM f = .ok ys ↔
    (∀ x ∈ xs, ∃ y, f x = .ok y) ∧ ys = xs.filterMap fun x => (f x).toOption := by
  induction xs generalizing ys with
  | nil =>
    constructor
    · rintro ⟨⟩
      exact ⟨nofun, rfl⟩
    · rintro ⟨_, rfl⟩
      rfl
  | cons x rest ih =>
    rw [List.mapM_cons, List.forall_mem_cons]
    constructor
    · intro ran
      obtain ⟨y, own, ran⟩ := bind_ok ran
      obtain ⟨later, others, ran⟩ := bind_ok ran
      cases ran
      obtain ⟨fine, rfl⟩ := ih.mp others
      exact ⟨⟨⟨y, own⟩, fine⟩, by simp [own, Except.toOption]⟩
    · rintro ⟨⟨⟨y, own⟩, fine⟩, rfl⟩
      rw [own, ih.mpr ⟨fine, rfl⟩]
      simp [own, Except.toOption, bind, Except.bind, pure, Except.pure]

theorem foldlM_cons_ok {f : σ → α → Except ε σ} {s t : σ} {a : α} {rest : List α}
    (run : (a :: rest).foldlM f s = .ok t) : ∃ next, f s a = .ok next ∧ rest.foldlM f next = .ok t := by
  rw [List.foldlM_cons] at run
  exact bind_ok run

theorem foldlM_append_ok {f : σ → α → Except ε σ} {s t : σ} {first second : List α}
    (run : (first ++ second).foldlM f s = .ok t) :
    ∃ middle, first.foldlM f s = .ok middle ∧ second.foldlM f middle = .ok t := by
  rw [List.foldlM_append] at run
  exact bind_ok run

/-! ## Lists of results -/

theorem exists_of_forall₂ {R : α → β → Prop} {xs : List α} {ys : List β} (related : List.Forall₂ R xs ys) {x : α}
    (member : x ∈ xs) : ∃ y ∈ ys, R x y := by
  induction related with
  | nil => cases member
  | cons own _ ih =>
    rcases List.mem_cons.mp member with rfl | later
    · exact ⟨_, List.mem_cons_self, own⟩
    · obtain ⟨y, inside, found⟩ := ih later
      exact ⟨y, List.mem_cons_of_mem _ inside, found⟩

theorem forall₂_of_mapM {f : α → Option β} {xs : List α} {ys : List β} (mapped : xs.mapM f = some ys) :
    List.Forall₂ (fun x y => f x = some y) xs ys := by
  induction xs generalizing ys with
  | nil =>
    cases mapped
    exact .nil
  | cons x rest ih =>
    simp only [List.mapM_cons, Option.bind_eq_bind] at mapped
    obtain ⟨y, own, mapped⟩ := Option.bind_eq_some_iff.mp mapped
    obtain ⟨others, tail, mapped⟩ := Option.bind_eq_some_iff.mp mapped
    cases mapped
    exact .cons own (ih tail)

theorem mapM_length {f : α → Option β} {xs : List α} {ys : List β} (mapped : xs.mapM f = some ys) :
    ys.length = xs.length :=
  (forall₂_of_mapM mapped).length_eq.symm

theorem mapM_forall₂ {f : α → Except ε β} {xs : List α} {ys : List β} :
    xs.mapM f = .ok ys ↔ List.Forall₂ (fun x y => f x = .ok y) xs ys := by
  induction xs generalizing ys with
  | nil =>
    cases ys with
    | nil => exact iff_of_true rfl .nil
    | cons y rest => exact iff_of_false (fun same => by cases same) fun related => by cases related
  | cons x rest ih =>
    rw [List.mapM_cons]
    constructor
    · intro run
      obtain ⟨y, own, run⟩ := bind_ok run
      obtain ⟨others, tail, run⟩ := bind_ok run
      cases run
      exact .cons own (ih.mp tail)
    · rintro (_ | ⟨own, tail⟩)
      rw [own, ih.mpr tail]
      rfl

theorem mapM_congr {f g : α → Except ε β} {items : List α} (same : ∀ a ∈ items, f a = g a) :
    items.mapM f = items.mapM g := by
  induction items with
  | nil => rfl
  | cons a rest ih =>
    rw [List.mapM_cons, List.mapM_cons, same a List.mem_cons_self, ih fun b member => same b (List.mem_cons_of_mem _ member)]

theorem mem_of_mapM_ok {f : α → Except ε β} {xs : List α} {ys : List β} (mapped : xs.mapM f = .ok ys) {y : β}
    (member : y ∈ ys) : ∃ x ∈ xs, f x = .ok y :=
  exists_of_forall₂ (mapM_forall₂.mp mapped).flip member

theorem exists_of_any {x : Except ε α} {p : α → Bool} (holds : x.toOption.any p = true) :
    ∃ a, x = .ok a ∧ p a = true := by
  cases x with
  | error e => cases holds
  | ok a => exact ⟨a, rfl, holds⟩

/-! ## Loops that remember -/

def eachWith (check : List α → α → Except ε Unit) : List α → List α → Except ε Unit
  | _, [] => .ok ()
  | earlier, x :: rest => do
    check earlier x
    eachWith check (x :: earlier) rest

theorem eachWith_ok_iff {check : List α → α → Except ε Unit} {P : α → Prop} {R : α → α → Prop}
    (spec : ∀ earlier x, check earlier x = .ok () ↔ P x ∧ ∀ y ∈ earlier, R y x) {earlier items : List α} :
    eachWith check earlier items = .ok () ↔
      (∀ x ∈ items, P x) ∧ items.Pairwise R ∧ ∀ y ∈ earlier, ∀ x ∈ items, R y x := by
  induction items generalizing earlier with
  | nil => simp [eachWith]
  | cons x rest ih =>
    have split : eachWith check earlier (x :: rest) = .ok () ↔
        check earlier x = .ok () ∧ eachWith check (x :: earlier) rest = .ok () := by
      rw [eachWith]
      constructor
      · intro run
        obtain ⟨_, own, tail⟩ := bind_ok run
        exact ⟨own, tail⟩
      · rintro ⟨own, tail⟩
        rw [own]
        exact tail
    rw [split, spec, ih]
    simp only [List.forall_mem_cons, List.pairwise_cons]
    constructor
    · rintro ⟨⟨here, before⟩, others, pairs, after, cross⟩
      exact ⟨⟨here, others⟩, ⟨after, pairs⟩, fun y member => ⟨before y member, cross y member⟩⟩
    · rintro ⟨⟨here, others⟩, ⟨after, pairs⟩, cross⟩
      exact ⟨⟨here, fun y member => (cross y member).1⟩, others, pairs, after, fun y member => (cross y member).2⟩

end Checked
