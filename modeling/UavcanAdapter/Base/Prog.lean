/-
# `Base.Prog` — calls on a state, with and without a return

`Prog σ α` is a call that works on a state: it leaves a state behind also
when it does not return.  `Triple P x Q E` says what holds after a call
from a state in `P`: `Q` when it returns, and `E` of the state it leaves
when it does not.  With `E` false the call is total; with `E` a property of
what is stored, it says what a system finds that starts anew after the
call was cut off.
-/
import UavcanAdapter.Base.Call

namespace Base

/-- A call on a state. -/
def Prog (σ α : Type) := σ → σ × Call α

namespace Prog

variable {σ α β : Type}

instance : Monad (Prog σ) where
  pure a := fun s => (s, .ok a)
  bind x f := fun s =>
    match x s with
    | (s, .ok a) => f a s
    | (s, .error e) => (s, .error e)

/-- A call that leaves the state alone. -/
def lift (x : Call α) : Prog σ α := fun s => (s, x)

/-- `assert(p)`. -/
def assert (p : Prop) [Decidable p] : Prog σ Unit := lift (Call.assert p)

theorem bind_of_ok {x : Prog σ α} {f : α → Prog σ β} {s s' : σ} {a : α} (h : x s = (s', .ok a)) :
    (x >>= f) s = f a s' := by
  simp only [bind, h]

theorem assert_bind {p : Prop} [Decidable p] (h : p) (f : Unit → Prog σ α) :
    (Prog.assert p >>= f) = f () := by
  funext s
  exact bind_of_ok (by rw [Prog.assert, lift, Call.assert_of_true h])

/-- A sequence of two calls returns iff both do. -/
theorem bind_eq_ok {x : Prog σ α} {f : α → Prog σ β} {s s' : σ} {b : β} :
    (x >>= f) s = (s', .ok b) ↔ ∃ s₁ a, x s = (s₁, .ok a) ∧ f a s₁ = (s', .ok b) := by
  rcases hx : x s with ⟨s₁, e | a⟩
  · constructor
    · intro h
      simp [bind, hx] at h
    · rintro ⟨s₂, a, h, -⟩
      cases h
  · rw [bind_of_ok hx]
    constructor
    · intro h
      exact ⟨s₁, a, rfl, h⟩
    · rintro ⟨s₂, a', h, h'⟩
      cases h
      exact h'

theorem pure_eq_ok {s s' : σ} {a b : α} :
    (pure a : Prog σ α) s = (s', .ok b) ↔ s = s' ∧ a = b := by
  simp [pure]

theorem lift_eq_ok {x : Call α} {s s' : σ} {b : α} :
    lift x s = (s', .ok b) ↔ s = s' ∧ x = .ok b := by
  simp [lift]

theorem assert_eq_ok {p : Prop} [Decidable p] {s s' : σ} {u : Unit} :
    Prog.assert p s = (s', .ok u) ↔ s = s' ∧ p := by
  rw [Prog.assert, lift_eq_ok, Call.assert_eq_ok]

/-! ## Triples -/

/-- From a state in `P`, `x` returns only what is in `Q`; where it does not
return it leaves a state in `E`. -/
def Triple (P : σ → Prop) (x : Prog σ α) (Q : α → σ → Prop) (E : σ → Prop) : Prop :=
  ∀ s, P s →
    match x s with
    | (s', .ok a) => Q a s'
    | (s', .error _) => E s'

namespace Triple

variable {P P' E E' : σ → Prop} {x : Prog σ α} {f : α → Prog σ β} {Q Q' : α → σ → Prop}
  {R : β → σ → Prop} {s s' : σ} {a : α}

theorem returned (h : Triple P x Q E) (hs : P s) (hx : x s = (s', .ok a)) : Q a s' := by
  have hQ := h s hs
  rwa [hx] at hQ

/-- What holds of the state that is left in either way. -/
theorem left (h : Triple P x Q E) (hs : P s) (hQ : ∀ a s', Q a s' → P' s')
    (hE : ∀ s', E s' → P' s') : P' (x s).1 := by
  have hx := h s hs
  rcases hs' : x s with ⟨s', e | a⟩
  · rw [hs'] at hx
    exact hE s' hx
  · rw [hs'] at hx
    exact hQ a s' hx

/-- Nothing is said about a call that does not return. -/
theorem of_returned (h : ∀ s a s', P s → x s = (s', .ok a) → Q a s') :
    Triple P x Q fun _ => True := by
  intro s hs
  rcases hx : x s with ⟨s', e | a⟩
  · trivial
  · exact h s a s' hs hx

theorem bind (hx : Triple P x Q E) (hf : ∀ a, Triple (Q a) (f a) R E) :
    Triple P (x >>= f) R E := by
  intro s hs
  have hQ := hx s hs
  rcases h : x s with ⟨s', e | a⟩
  · rw [h] at hQ
    simpa only [Bind.bind, h] using hQ
  · rw [h] at hQ
    rw [bind_of_ok h]
    exact hf a s' hQ

theorem mono (h : Triple P x Q E) (hP : ∀ s, P' s → P s) (hQ : ∀ a s, Q a s → Q' a s)
    (hE : ∀ s, E s → E' s) : Triple P' x Q' E' := by
  intro s hs
  have hx := h s (hP s hs)
  rcases hs' : x s with ⟨s', e | a⟩
  · rw [hs'] at hx
    exact hE s' hx
  · rw [hs'] at hx
    exact hQ a s' hx

theorem ite {c : Prop} [Decidable c] {y : Prog σ α} (hx : c → Triple P x Q E)
    (hy : ¬c → Triple P y Q E) : Triple P (if c then x else y) Q E := by
  by_cases hc : c
  · rw [if_pos hc]
    exact hx hc
  · rw [if_neg hc]
    exact hy hc

end Triple

end Prog

end Base
