/-
# `Base.Bits` — bit strings inside byte strings

Bits are counted from the most significant bit of the first byte on.
`readBits` copies a run of bits to the start of a byte string of its own and
`writeBits` overwrites one.  Runs of whole bytes at a byte boundary are
pieces and patches in the sense of `Base.Bytes`.
-/
import UavcanAdapter.Base.Bytes

namespace Base

/-- Bit `k` of a byte string; zero behind its end. -/
def bitAt (bs : List UInt8) (k : Nat) : Bool := (bs.getD (k / 8) 0).toNat.testBit (7 - k % 8)

/-- The byte whose bits, most significant first, are `f 0`, …, `f 7`. -/
def byteOfBits (f : Nat → Bool) : UInt8 :=
  UInt8.ofNat ((f 0).toNat * 128 + (f 1).toNat * 64 + (f 2).toNat * 32 + (f 3).toNat * 16 +
    (f 4).toNat * 8 + (f 5).toNat * 4 + (f 6).toNat * 2 + (f 7).toNat)

/-- The `n` bits from bit `o` on, the last byte filled up with zeros. -/
def readBits (bs : List UInt8) (o n : Nat) : List UInt8 :=
  (List.range ((n + 7) / 8)).map fun i =>
    byteOfBits fun j => decide (8 * i + j < n) && bitAt bs (o + (8 * i + j))

/-- `dst` with the `n` bits from bit `o` on overwritten by the first of `src`. -/
def writeBits (dst : List UInt8) (o n : Nat) (src : List UInt8) : List UInt8 :=
  (List.range dst.length).map fun i => byteOfBits fun j =>
    if o ≤ 8 * i + j ∧ 8 * i + j < o + n then bitAt src (8 * i + j - o) else bitAt dst (8 * i + j)

theorem byteOfBits_congr {f g : Nat → Bool} (h : ∀ j < 8, f j = g j) :
    byteOfBits f = byteOfBits g := by
  simp only [byteOfBits, h 0 (by omega), h 1 (by omega), h 2 (by omega), h 3 (by omega),
    h 4 (by omega), h 5 (by omega), h 6 (by omega), h 7 (by omega)]

theorem byteOfBits_testBit (b : UInt8) : byteOfBits (fun j => b.toNat.testBit (7 - j)) = b := by
  have hall : ∀ n : Fin 256, byteOfBits (fun j => n.val.testBit (7 - j)) = UInt8.ofNat n.val := by
    decide +kernel
  have h := hall ⟨b.toNat, b.toNat_lt⟩
  simpa using h

/-- A byte is its eight bits. -/
theorem byteOfBits_bitAt (bs : List UInt8) (i : Nat) :
    byteOfBits (fun j => bitAt bs (8 * i + j)) = bs.getD i 0 := by
  rw [← byteOfBits_testBit (bs.getD i 0)]
  apply byteOfBits_congr
  intro j hj
  rw [bitAt, show (8 * i + j) / 8 = i by omega, show (8 * i + j) % 8 = j by omega]

@[simp] theorem length_readBits (bs : List UInt8) (o n : Nat) :
    (readBits bs o n).length = (n + 7) / 8 := by
  simp [readBits]

@[simp] theorem length_writeBits (dst src : List UInt8) (o n : Nat) :
    (writeBits dst o n src).length = dst.length := by
  simp [writeBits]

theorem readBits_bytes {bs : List UInt8} {o n : Nat} (h : o + n ≤ bs.length) :
    readBits bs (8 * o) (8 * n) = slice bs o n := by
  apply List.ext_getElem
  · simp
    omega
  · intro i h1 h2
    have hi : i < n := by simp at h1; omega
    have hbits : byteOfBits (fun j => decide (8 * i + j < 8 * n) && bitAt bs (8 * o + (8 * i + j)))
        = byteOfBits (fun j => bitAt bs (8 * (o + i) + j)) := by
      apply byteOfBits_congr
      intro j hj
      rw [decide_eq_true (by omega), Bool.true_and]
      congr 1
      omega
    simp only [readBits, List.getElem_map, List.getElem_range]
    rw [hbits, byteOfBits_bitAt]
    simp [slice, List.getElem?_eq_getElem (by omega : o + i < bs.length)]

theorem writeBits_bytes {dst src : List UInt8} {o n : Nat} (hn : n ≤ src.length)
    (h : o + n ≤ dst.length) : writeBits dst (8 * o) (8 * n) src = patch dst o (src.take n) := by
  have hlen : (src.take n).length = n := by simp; omega
  apply List.ext_getElem
  · rw [length_writeBits, length_patch (by omega)]
  · intro i h1 h2
    have hi : i < dst.length := by simpa using h1
    simp only [writeBits, List.getElem_map, List.getElem_range, patch]
    by_cases hin : o ≤ i ∧ i < o + n
    · have hbits : byteOfBits (fun j => if 8 * o ≤ 8 * i + j ∧ 8 * i + j < 8 * o + 8 * n
            then bitAt src (8 * i + j - 8 * o) else bitAt dst (8 * i + j))
          = byteOfBits (fun j => bitAt src (8 * (i - o) + j)) := by
        apply byteOfBits_congr
        intro j hj
        rw [if_pos (by omega)]
        congr 1
        omega
      rw [hbits, byteOfBits_bitAt, List.getElem_append_left (by simp; omega),
        List.getElem_append_right (by simp; omega)]
      simp only [List.length_take, Nat.min_eq_left (by omega : o ≤ dst.length)]
      rw [List.getD_eq_getElem?_getD, List.getElem?_eq_getElem (by omega), List.getElem_take]
      rfl
    · have hbits : byteOfBits (fun j => if 8 * o ≤ 8 * i + j ∧ 8 * i + j < 8 * o + 8 * n
            then bitAt src (8 * i + j - 8 * o) else bitAt dst (8 * i + j))
          = byteOfBits (fun j => bitAt dst (8 * i + j)) := by
        apply byteOfBits_congr
        intro j hj
        rw [if_neg (by omega)]
      rw [hbits, byteOfBits_bitAt]
      rw [List.getD_eq_getElem?_getD, List.getElem?_eq_getElem hi]
      rcases Nat.lt_or_ge i o with hlt | hge
      · rw [List.getElem_append_left (by simp; omega), List.getElem_append_left (by simp; omega)]
        simp
      · rw [List.getElem_append_right (by simp; omega)]
        simp only [List.length_append, hlen, List.length_take, List.getElem_drop, Option.getD_some]
        congr 1
        omega

end Base
