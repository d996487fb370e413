/-
# `Base.Registers` — words that are put together from parts

The parts of a word are moved to their places by shifts and joined with "or".
In terms of the bits that a word holds, a shift moves the numbers of the bits
(`holds_shiftLeft`, `holds_shiftRight`); of a word joined from four bytes the
bytes can be read again (`splitBytes_joinBytes`).
-/
import UavcanAdapter.Base.BitSet

namespace Base

namespace BitSet

variable {m : UInt32} {i k n : Nat}

theorem toNat_ofNat_mod {k : Nat} (h : k < 32) : (UInt32.ofNat k).toNat % 32 = k := by
  rw [UInt32.toNat_ofNat']
  omega

theorem holds_shiftLeft (h : k < 32) :
    Holds (m <<< UInt32.ofNat k) i ↔ k ≤ i ∧ i < 32 ∧ Holds m (i - k) := by
  rw [Holds, UInt32.toNat_shiftLeft, toNat_ofNat_mod h, Nat.testBit_mod_two_pow,
    Nat.testBit_shiftLeft, Holds]
  simp only [Bool.and_eq_true, decide_eq_true_eq]
  tauto

theorem holds_shiftRight (h : k < 32) : Holds (m >>> UInt32.ofNat k) i ↔ Holds m (i + k) := by
  rw [Holds, UInt32.toNat_shiftRight, toNat_ofNat_mod h, Nat.testBit_shiftRight, Holds,
    Nat.add_comm]

theorem not_holds_of_lt (h : m.toNat < 2 ^ n) (hi : n ≤ i) : ¬Holds m i := by
  rw [Holds, Nat.testBit_lt_two_pow (h.trans_le (Nat.pow_le_pow_right (by decide) hi))]
  exact Bool.false_ne_true

end BitSet

section Words

/-- A word of four bytes, the lowest one first. -/
def joinBytes (b₀ b₁ b₂ b₃ : UInt8) : UInt32 :=
  (b₃.toUInt32 <<< 24) ||| (b₂.toUInt32 <<< 16) ||| (b₁.toUInt32 <<< 8) ||| (b₀.toUInt32 <<< 0)

/-- The bytes of a word, the lowest one first. -/
def splitBytes (w : UInt32) : List UInt8 :=
  [((w >>> 0) &&& 0xFF).toUInt8, ((w >>> 8) &&& 0xFF).toUInt8, ((w >>> 16) &&& 0xFF).toUInt8,
    ((w >>> 24) &&& 0xFF).toUInt8]

variable {b b₀ b₁ b₂ b₃ : UInt8}

theorem toNat_joinBytes (b₀ b₁ b₂ b₃ : UInt8) : (joinBytes b₀ b₁ b₂ b₃).toNat =
    b₀.toNat + 2 ^ 8 * b₁.toNat + 2 ^ 16 * b₂.toNat + 2 ^ 24 * b₃.toNat := by
  have h₀ : b₀.toNat < 2 ^ 8 := b₀.toNat_lt
  have h₁ : b₁.toNat < 2 ^ 8 := b₁.toNat_lt
  have h₂ : b₂.toNat < 2 ^ 8 := b₂.toNat_lt
  have h₃ : b₃.toNat < 2 ^ 8 := b₃.toNat_lt
  have hshift : ∀ (b : UInt8) (k : Nat), k ≤ 24 →
      (b.toUInt32 <<< UInt32.ofNat k).toNat = b.toNat <<< k := by
    intro b k hk
    have hlt : b.toNat * 2 ^ k < 2 ^ 32 := calc
      b.toNat * 2 ^ k ≤ b.toNat * 2 ^ 24 :=
        Nat.mul_le_mul_left _ (Nat.pow_le_pow_right (by decide) hk)
      _ < 2 ^ 32 := by have := b.toNat_lt; omega
    rw [UInt32.toNat_shiftLeft, BitSet.toNat_ofNat_mod (by omega), UInt8.toNat_toUInt32,
      Nat.shiftLeft_eq, Nat.mod_eq_of_lt hlt]
  have h24 : (b₃.toUInt32 <<< 24).toNat = b₃.toNat <<< 24 := hshift b₃ 24 (by decide)
  have h16 : (b₂.toUInt32 <<< 16).toNat = b₂.toNat <<< 16 := hshift b₂ 16 (by decide)
  have h8 : (b₁.toUInt32 <<< 8).toNat = b₁.toNat <<< 8 := hshift b₁ 8 (by decide)
  have h0 : (b₀.toUInt32 <<< 0).toNat = b₀.toNat <<< 0 := hshift b₀ 0 (by decide)
  have hor : ∀ (a c : Nat), c < 2 ^ 8 → a <<< 8 ||| c = 2 ^ 8 * a + c := by
    intro a c hc
    rw [← Nat.shiftLeft_add_eq_or_of_lt hc, Nat.shiftLeft_eq, Nat.mul_comm]
  rw [joinBytes, UInt32.toNat_or, UInt32.toNat_or, UInt32.toNat_or, h24, h16, h8, h0]
  have hnest : b₃.toNat <<< 24 ||| b₂.toNat <<< 16 ||| b₁.toNat <<< 8 ||| b₀.toNat <<< 0 =
      ((b₃.toNat <<< 8 ||| b₂.toNat) <<< 8 ||| b₁.toNat) <<< 8 ||| b₀.toNat := by
    simp only [Nat.shiftLeft_or_distrib, ← Nat.shiftLeft_add, Nat.shiftLeft_zero]
  rw [hnest, hor _ _ h₀, hor _ _ h₁, hor _ _ h₂]
  omega

/-- The bytes of a word that is joined from bytes are these. -/
theorem splitBytes_joinBytes : splitBytes (joinBytes b₀ b₁ b₂ b₃) = [b₀, b₁, b₂, b₃] := by
  have h₀ : b₀.toNat < 2 ^ 8 := b₀.toNat_lt
  have h₁ : b₁.toNat < 2 ^ 8 := b₁.toNat_lt
  have h₂ : b₂.toNat < 2 ^ 8 := b₂.toNat_lt
  have h₃ : b₃.toNat < 2 ^ 8 := b₃.toNat_lt
  have hw := toNat_joinBytes b₀ b₁ b₂ b₃
  generalize joinBytes b₀ b₁ b₂ b₃ = w at hw ⊢
  have hbyte : ∀ (k : Nat) (b : UInt8), k < 32 → w.toNat / 2 ^ k % 2 ^ 8 = b.toNat →
      ((w >>> UInt32.ofNat k) &&& 0xFF).toUInt8 = b := by
    intro k b hk h
    apply UInt8.toNat_inj.mp
    rw [UInt32.toNat_toUInt8, UInt32.toNat_and, UInt32.toNat_shiftRight, BitSet.toNat_ofNat_mod hk,
      Nat.shiftRight_eq_div_pow, show (0xFF : UInt32).toNat = 2 ^ 8 - 1 from rfl,
      Nat.and_two_pow_sub_one_eq_mod, Nat.mod_mod, h]
  rw [splitBytes]
  congr 1
  · exact hbyte 0 b₀ (by decide) (by omega)
  · congr 1
    · exact hbyte 8 b₁ (by decide) (by omega)
    · congr 1
      · exact hbyte 16 b₂ (by decide) (by omega)
      · congr 1
        exact hbyte 24 b₃ (by decide) (by omega)

end Words

end Base
