/-
# `Base.Machine` — state machines, runs and invariants

A `Machine` is a set of initial states and a labelled step relation.  The
labels say which party moves and what it is told, so that any interleaving
of several parties is a run of one machine.

Three rules carry every result about whole runs:

  * `Reachable.invariant` — what holds initially and survives each step
    holds in every reachable state;
  * `Run.related` — two runs that differ in some labels only stay related
    if these labels do not disturb the relation;
  * `restrict` — the runs whose steps all meet a condition are the runs of
    a machine of their own, so the other rules apply to them as well.
-/
import Mathlib.Tactic

namespace Base

/-- Initial states and labelled steps. -/
structure Machine (S A : Type) where
  init : S → Prop
  step : S → A → S → Prop

namespace Machine

variable {S A T B : Type}

/-- The states a run from an initial state can end in. -/
inductive Reachable (M : Machine S A) : S → Prop
  | init {s : S} : M.init s → Reachable M s
  | step {s s' : S} {a : A} : Reachable M s → M.step s a s' → Reachable M s'

/-- `Run s as s'`: the labels `as`, taken in order, lead from `s` to `s'`. -/
inductive Run (M : Machine S A) : S → List A → S → Prop
  | nil {s : S} : Run M s [] s
  | cons {s s' s'' : S} {a : A} {as : List A} :
      M.step s a s' → Run M s' as s'' → Run M s (a :: as) s''

/-- What holds initially and survives every step from a reachable state
holds in every reachable state. -/
theorem Reachable.invariant {M : Machine S A} {I : S → Prop}
    (h0 : ∀ s, M.init s → I s)
    (hs : ∀ s a s', Reachable M s → I s → M.step s a s' → I s') :
    ∀ {s : S}, Reachable M s → I s := by
  intro s h
  induction h with
  | init hi => exact h0 _ hi
  | step hr hst ih => exact hs _ _ _ hr ih hst

theorem Run.reachable {M : Machine S A} {s s' : S} {as : List A}
    (hs : Reachable M s) (h : Run M s as s') : Reachable M s' := by
  induction h with
  | nil => exact hs
  | cons hst _ ih => exact ih (hs.step hst)

/-- Two runs, of which the second leaves out the labels that do not concern
it, stay related if every common label keeps the relation and every label
left out does so on its own. -/
theorem Run.related {M N : Machine S A} {R : S → S → Prop} {keep : A → Bool}
    (hkeep : ∀ s t a s' t', keep a = true → R s t → M.step s a s' → N.step t a t' → R s' t')
    (hskip : ∀ s t a s', keep a = false → R s t → M.step s a s' → R s' t) :
    ∀ {s t s' t' : S} {as : List A}, R s t → Run M s as s' → Run N t (as.filter keep) t' →
      R s' t' := by
  intro s t s' t' as hR h
  induction h generalizing t with
  | nil =>
      intro h'
      cases h'
      exact hR
  | @cons s s₁ s' a as hst _ ih =>
      intro h'
      cases hk : keep a with
      | false =>
          rw [List.filter_cons_of_neg (by simp [hk])] at h'
          exact ih (hskip _ _ _ _ hk hR hst) h'
      | true =>
          rw [List.filter_cons_of_pos hk] at h'
          cases h' with
          | cons hst' hrest => exact ih (hkeep _ _ _ _ _ hk hR hst hst') hrest

/-- The machine whose steps are those that meet `good`. -/
def restrict (M : Machine S A) (good : S → A → S → Prop) : Machine S A where
  init := M.init
  step s a s' := M.step s a s' ∧ good s a s'

/-- A restricted run is a run. -/
theorem Run.of_restrict {M : Machine S A} {good : S → A → S → Prop} {s s' : S} {as : List A}
    (h : Run (M.restrict good) s as s') : Run M s as s' := by
  induction h with
  | nil => exact .nil
  | cons hst _ ih => exact .cons hst.1 ih

theorem Reachable.of_restrict {M : Machine S A} {good : S → A → S → Prop} {s : S}
    (h : Reachable (M.restrict good) s) : Reachable M s := by
  induction h with
  | init hi => exact .init hi
  | step _ hst ih => exact ih.step hst.1

/-- The machine of a step function that may fail. -/
def ofFunction {E : Type} (init : S → Prop) (f : S → A → Except E S) : Machine S A where
  init := init
  step s a s' := f s a = .ok s'

/-- Calling the step function on label after label, each of which meets a
condition, is a run. -/
theorem run_of_foldlM {E : Type} (init : S → Prop) {f : S → A → Except E S} (e : E)
    {good : S → A → Prop} [∀ s a, Decidable (good s a)] :
    ∀ {as : List A} {s s' : S},
      as.foldlM (fun s a => if good s a then f s a else .error e) s = .ok s' →
      Run ((ofFunction init f).restrict fun s a _ => good s a) s as s'
  | [], s, s', h => by
      cases h
      exact .nil
  | a :: as, s, s', h => by
      rw [List.foldlM_cons] at h
      by_cases hg : good s a
      · rw [if_pos hg] at h
        cases hf : f s a with
        | error e => simp [hf, bind, Except.bind] at h
        | ok s₁ =>
            rw [hf] at h
            exact .cons ⟨hf, hg⟩ (run_of_foldlM init e h)
      · simp [hg, bind, Except.bind] at h

/-- A condition on the labels alone can be made a condition on the steps. -/
theorem Run.restrict_of_forall {M : Machine S A} {good : S → A → S → Prop} {p : A → Prop}
    {s s' : S} {as : List A} (h : Run (M.restrict good) s as s') (hp : ∀ a ∈ as, p a) :
    Run (M.restrict fun s a s' => good s a s' ∧ p a) s as s' := by
  induction h with
  | nil => exact .nil
  | cons hst _ ih =>
      exact .cons ⟨hst.1, hst.2, hp _ List.mem_cons_self⟩
        (ih fun a ha => hp a (List.mem_cons_of_mem _ ha))

/-- Two conditions can be put one after the other. -/
theorem Run.restrict_and {M : Machine S A} {good good' : S → A → S → Prop} {s s' : S} {as : List A}
    (h : Run (M.restrict fun s a s' => good s a s' ∧ good' s a s') s as s') :
    Run ((M.restrict good).restrict good') s as s' := by
  induction h with
  | nil => exact .nil
  | cons hst _ ih => exact .cons ⟨⟨hst.1, hst.2.1⟩, hst.2.2⟩ ih

end Machine

end Base
