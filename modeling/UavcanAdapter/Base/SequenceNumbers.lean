/-
# `Base.SequenceNumbers` — numbering messages modulo `n`

A sender numbers its messages `0, 1, …, n - 1, 0, …`.  `Numbered n next ids`
says that `ids` are the numbers it has used, the latest first, and that
`next` is the one to come.  Among any `n` messages in a row a number then
belongs to one message only (`Numbered.latest`), which is what a receiver of
answers with bounded delay relies on.
-/
import Mathlib.Tactic

namespace Base

/-- The numbers used so far, the latest first, and the next one. -/
def Numbered (n next : Nat) (ids : List Nat) : Prop :=
  ∀ j i, ids[j]? = some i → (i + 1 + j) % n = next % n

theorem numbered_nil (n next : Nat) : Numbered n next [] := by
  intro j i h
  simp at h

/-- The next number is used. -/
theorem Numbered.cons {n next : Nat} {ids : List Nat} (h : Numbered n next ids) :
    Numbered n ((next + 1) % n) (next :: ids) := by
  intro j i hi
  rw [Nat.mod_mod]
  cases j with
  | zero =>
      obtain rfl : next = i := by simpa using hi
      rfl
  | succ j =>
      have hold : i + 1 + j ≡ next [MOD n] := h j i (by simpa using hi)
      exact hold.add_right 1

/-- Of the last `n` messages only the latest has the number in front of the
next one. -/
theorem Numbered.latest {n next j i : Nat} {ids : List Nat} (h : Numbered n next ids)
    (hi : ids[j]? = some i) (hj : j < n) (hmatch : (i + 1) % n = next % n) : j = 0 := by
  have hsame : i + 1 + j ≡ i + 1 + 0 [MOD n] := (h j i hi).trans hmatch.symm
  have hzero : j ≡ 0 [MOD n] := hsame.add_left_cancel' (i + 1)
  exact Nat.eq_zero_of_dvd_of_lt ((Nat.modEq_zero_iff_dvd).mp hzero) hj

end Base
