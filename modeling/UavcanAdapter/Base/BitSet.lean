/-
# `Base.BitSet` — a 32-bit mask as a set of small numbers

`Holds m i` reads bit `i` of the mask `m`.  Setting one bit adds one number
(`holds_insert`), and the mask `2^n - 1` is the set of the numbers below `n`
(`holds_below`), so that comparing a mask with it asks whether all of them
are there (`covers_iff`).
-/
import Mathlib.Tactic

namespace Base

namespace BitSet

/-- The number `i` is in the set. -/
def Holds (m : UInt32) (i : Nat) : Prop := m.toNat.testBit i = true

instance decHolds (m : UInt32) (i : Nat) : Decidable (Holds m i) :=
  inferInstanceAs (Decidable (_ = true))

theorem not_holds_zero (i : Nat) : ¬Holds 0 i := by
  simp [Holds]

theorem not_holds_of_le {m : UInt32} {i : Nat} (h : 32 ≤ i) : ¬Holds m i := by
  have hlt : m.toNat < 2 ^ i := Nat.lt_of_lt_of_le m.toNat_lt (Nat.pow_le_pow_right (by decide) h)
  rw [Holds, Nat.testBit_lt_two_pow hlt]
  exact Bool.false_ne_true

theorem ext_holds {m m' : UInt32} (h : ∀ i, Holds m i ↔ Holds m' i) : m = m' := by
  apply UInt32.toNat_inj.mp
  apply Nat.eq_of_testBit_eq
  intro i
  exact Bool.eq_iff_iff.mpr (h i)

theorem holds_or {m m' : UInt32} {i : Nat} : Holds (m ||| m') i ↔ Holds m i ∨ Holds m' i := by
  simp [Holds]

theorem holds_and {m m' : UInt32} {i : Nat} : Holds (m &&& m') i ↔ Holds m i ∧ Holds m' i := by
  simp [Holds]

/-- Two words agree under a mask iff they agree on the bits in it. -/
theorem and_eq_and_iff {x y m : UInt32} :
    x &&& m = y &&& m ↔ ∀ i, Holds m i → (Holds x i ↔ Holds y i) := by
  constructor
  · intro h i hm
    have hx : Holds (x &&& m) i ↔ Holds (y &&& m) i := by rw [h]
    rwa [holds_and, holds_and, and_iff_left hm, and_iff_left hm] at hx
  · intro h
    apply ext_holds
    intro i
    rw [holds_and, holds_and]
    exact and_congr_left (h i)

/-- `1 << n`: the set of `n` alone. -/
def single (n : Nat) : UInt32 := 1 <<< UInt32.ofNat n

/-- `(1 << n) - 1`: the set of the numbers below `n`. -/
def below (n : Nat) : UInt32 := single n - 1

theorem toNat_single {n : Nat} (h : n < 32) : (single n).toNat = 2 ^ n := by
  have hmod : n % 2 ^ 32 % 32 = n := by omega
  have hpow : 2 ^ n < 2 ^ 32 := Nat.pow_lt_pow_right (by omega) h
  rw [single, UInt32.toNat_shiftLeft, UInt32.toNat_ofNat', hmod, UInt32.toNat_one,
    Nat.one_shiftLeft, Nat.mod_eq_of_lt hpow]

theorem holds_single {n i : Nat} (h : n < 32) : Holds (single n) i ↔ i = n := by
  rw [Holds, toNat_single h, Nat.testBit_two_pow]
  simp [eq_comm]

theorem and_single_eq_zero_iff {m : UInt32} {n : Nat} (h : n < 32) :
    m &&& single n = 0 ↔ ¬Holds m n := by
  constructor
  · intro h0 hm
    have hboth : Holds (m &&& single n) n := holds_and.mpr ⟨hm, (holds_single h).mpr rfl⟩
    rw [h0] at hboth
    exact not_holds_zero n hboth
  · intro hm
    apply ext_holds
    intro i
    rw [holds_and, holds_single h]
    constructor
    · rintro ⟨hi, rfl⟩
      exact absurd hi hm
    · exact fun hi => absurd hi (not_holds_zero i)

/-- Setting a bit adds its number. -/
theorem holds_insert {m : UInt32} {n i : Nat} (h : n < 32) :
    Holds (m ||| single n) i ↔ i = n ∨ Holds m i := by
  rw [holds_or, holds_single h, or_comm]

theorem holds_below {n i : Nat} (h : n < 32) : Holds (below n) i ↔ i < n := by
  have hle : (1 : UInt32) ≤ single n := by
    rw [UInt32.le_iff_toNat_le, toNat_single h]
    exact Nat.one_le_two_pow
  rw [Holds, below, UInt32.toNat_sub_of_le _ _ hle, toNat_single h, UInt32.toNat_one,
    Nat.testBit_two_pow_sub_one]
  exact decide_eq_true_iff

/-- The mask holds every number below `n`. -/
theorem covers_iff {m : UInt32} {n : Nat} (h : n < 32) :
    m &&& below n = below n ↔ ∀ i, i < n → Holds m i := by
  constructor
  · intro heq i hi
    have hin : Holds (m &&& below n) i := by
      rw [heq]
      exact (holds_below h).mpr hi
    exact (holds_and.mp hin).1
  · intro hall
    apply ext_holds
    intro i
    rw [holds_and, holds_below h]
    exact ⟨fun hi => hi.2, fun hi => ⟨hall i hi, hi⟩⟩

end BitSet

end Base
