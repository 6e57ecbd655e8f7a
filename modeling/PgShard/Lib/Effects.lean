import Mathlib

/-! Programs whose calls to their surroundings are data, and monitors of such programs. -/

namespace Effects

variable {Op : Type} {Ans : Op → Type} {ε ε' α β σ : Type}

/-- A program returns, exits early, or makes a call and goes on with its answer. -/
inductive Prog (Ans : Op → Type) (ε α : Type) : Type
  | ret (a : α)
  | exit (e : ε)
  | call (o : Op) (k : Ans o → Prog Ans ε α)

namespace Prog

def bind : Prog Ans ε α → (α → Prog Ans ε β) → Prog Ans ε β
  | ret a, f => f a
  | exit e, _ => exit e
  | call o k, f => call o fun a => (k a).bind f

instance : Monad (Prog Ans ε) where
  pure := ret
  bind := bind

def perform (o : Op) : Prog Ans ε (Ans o) :=
  call o ret

/-- Runs the program to its end, so that an early exit becomes a result. -/
def attempt : Prog Ans ε α → Prog Ans ε' (Except ε α)
  | ret a => ret (.ok a)
  | exit e => ret (.error e)
  | call o k => call o fun a => (k a).attempt

end Prog

/-- A monitor follows a program's calls: which one is permitted in which state,
what the surroundings can answer, and the state after an answer. -/
structure Monitor (Ans : Op → Type) (σ : Type) where
  permits : σ → Op → Prop
  gives : (o : Op) → Ans o → Prop
  next : σ → (o : Op) → Ans o → σ

/-- From state `s` every call of the program is permitted, whatever it is
answered; it returns as `Q` says and exits as `E` says. -/
def Monitor.Obeys (M : Monitor Ans σ) : Prog Ans ε α → σ → (σ → α → Prop) → (σ → ε → Prop) → Prop
  | .ret a, s, Q, _ => Q s a
  | .exit e, s, _, E => E s e
  | .call o k, s, Q, E => M.permits s o ∧ ∀ a, M.gives o a → M.Obeys (k a) (M.next s o a) Q E

namespace Monitor

variable {M : Monitor Ans σ} {s : σ} {Q : σ → α → Prop} {E : σ → ε → Prop}

@[simp] theorem obeys_ret {a : α} : M.Obeys (.ret a) s Q E ↔ Q s a := Iff.rfl

@[simp] theorem obeys_bind {p : Prog Ans ε α} {f : α → Prog Ans ε β} {Q : σ → β → Prop} :
    M.Obeys (p >>= f) s Q E ↔ M.Obeys p s (fun t a => M.Obeys (f a) t Q E) E := by
  induction p generalizing s with
  | ret a | exit e => exact Iff.rfl
  | call o k ih => exact and_congr_right fun _ => forall₂_congr fun a _ => ih a

theorem obeys_ite {c : Prop} [Decidable c] {p q : Prog Ans ε α} (onTrue : c → M.Obeys p s Q E)
    (onFalse : ¬ c → M.Obeys q s Q E) : M.Obeys (if c then p else q) s Q E := by
  split
  · exact onTrue ‹_›
  · exact onFalse ‹_›

@[simp] theorem obeys_attempt {p : Prog Ans ε α} {Q : σ → Except ε α → Prop} {E : σ → ε' → Prop} :
    M.Obeys p.attempt s Q E ↔ M.Obeys p s (fun t a => Q t (.ok a)) (fun t e => Q t (.error e)) := by
  induction p generalizing s with
  | ret a | exit e => exact Iff.rfl
  | call o k ih => exact and_congr_right fun _ => forall₂_congr fun a _ => ih a

theorem Obeys.mono {p : Prog Ans ε α} {Q' : σ → α → Prop} {E' : σ → ε → Prop} (obeys : M.Obeys p s Q E)
    (onReturn : ∀ t a, Q t a → Q' t a) (onExit : ∀ t e, E t e → E' t e) : M.Obeys p s Q' E' := by
  induction p generalizing s with
  | ret a => exact onReturn s a obeys
  | exit e => exact onExit s e obeys
  | call o k ih => exact ⟨obeys.1, fun a given => ih a (obeys.2 a given)⟩

theorem Obeys.bind {p : Prog Ans ε α} {f : α → Prog Ans ε β} {R : σ → β → Prop} (first : M.Obeys p s Q E)
    (rest : ∀ t a, Q t a → M.Obeys (f a) t R E) : M.Obeys (p >>= f) s R E :=
  obeys_bind.mpr (first.mono rest fun _ _ exits => exits)

variable {F : ε → Prop}

/-- The program's calls are permitted from every state and leave it as it is; it
exits only as `F` says. -/
def Silent (M : Monitor Ans σ) (F : ε → Prop) (p : Prog Ans ε α) : Prop :=
  ∀ s, M.Obeys p s (fun t _ => t = s) (fun t e => t = s ∧ F e)

theorem Silent.obeys {p : Prog Ans ε α} (silent : M.Silent F p) (onReturn : ∀ a, Q s a)
    (onExit : ∀ e, F e → E s e) : M.Obeys p s Q E :=
  (silent s).mono (fun _ a same => same ▸ onReturn a) (fun _ e exits => exits.1 ▸ onExit e exits.2)

theorem Silent.bind {p : Prog Ans ε α} {f : α → Prog Ans ε β} (first : M.Silent F p)
    (rest : ∀ a, M.Silent F (f a)) : M.Silent F (p >>= f) :=
  fun s => obeys_bind.mpr (first.obeys (fun a => rest a s) fun _ exits => ⟨rfl, exits⟩)

theorem silent_ret (a : α) : M.Silent F (.ret a : Prog Ans ε α) := fun _ => rfl

/-- The program keeps `I`, whatever it is answered, and exits as `E` says. -/
def Keeps (M : Monitor Ans σ) (I : σ → Prop) (E : σ → ε → Prop) (p : Prog Ans ε α) : Prop :=
  ∀ s, I s → M.Obeys p s (fun t _ => I t) E

variable {I : σ → Prop}

theorem Keeps.bind {p : Prog Ans ε α} {f : α → Prog Ans ε β} (first : M.Keeps I E p)
    (rest : ∀ a, M.Keeps I E (f a)) : M.Keeps I E (p >>= f) :=
  fun s holds => ((first s holds).bind fun t a kept => rest a t kept)

theorem keeps_ret (a : α) : M.Keeps I E (.ret a : Prog Ans ε α) := fun _ holds => holds

theorem Silent.keeps {p : Prog Ans ε α} (silent : M.Silent F p) (onExit : ∀ s e, I s → F e → E s e) :
    M.Keeps I E p :=
  fun s holds => silent.obeys (fun _ => holds) fun e exits => onExit s e holds exits

end Monitor

end Effects
