/-
# `Base.Words` — 32-bit words and floats in memory

The little-endian image of a 32-bit word and of an array of such words, and
the words in a byte string.  A word whose writing was cut off after its
first halfword, in a memory that is blank at `0xFF`, has `0xFFFF` above;
read as an IEEE 754 single, such a word is not a number
(`not_isFinite_of_torn`).
-/
import UavcanAdapter.Base.Bytes

namespace Base

/-! ## Words and bytes -/

/-- The four bytes of a word. -/
def wordBytes (w : UInt32) : List UInt8 := leBytes 4 w.toNat

/-- The bytes of an array of words. -/
def wordsBytes (ws : List UInt32) : List UInt8 := ws.flatMap wordBytes

/-- The word at a byte offset. -/
def wordAt (bs : List UInt8) (o : Nat) : UInt32 := UInt32.ofNat (leNat (slice bs o 4))

/-- The first `n` words of a byte string. -/
def words (n : Nat) (bs : List UInt8) : List UInt32 :=
  (List.range n).map fun i => wordAt bs (4 * i)

@[simp] theorem length_wordBytes (w : UInt32) : (wordBytes w).length = 4 := length_leBytes 4 _

@[simp] theorem length_wordsBytes (ws : List UInt32) : (wordsBytes ws).length = 4 * ws.length := by
  induction ws with
  | nil => rfl
  | cons w ws ih =>
      rw [wordsBytes, List.flatMap_cons, List.length_append, ← wordsBytes, ih, length_wordBytes,
        List.length_cons]
      omega

@[simp] theorem length_words (n : Nat) (bs : List UInt8) : (words n bs).length = n := by
  simp [words]

/-- A word is the word its bytes spell. -/
theorem ofNat_leNat_wordBytes (w : UInt32) : UInt32.ofNat (leNat (wordBytes w)) = w := by
  have hw : w.toNat < 256 ^ 4 := w.toNat_lt
  rw [wordBytes, leNat_leBytes_of_lt hw, UInt32.ofNat_toNat]

theorem wordAt_of_slice {bs : List UInt8} {o : Nat} {w : UInt32}
    (h : slice bs o 4 = wordBytes w) : wordAt bs o = w := by
  rw [wordAt, h, ofNat_leNat_wordBytes]

/-- A word of an array lies at four times its index. -/
theorem slice_wordsBytes {w : UInt32} : ∀ {ws : List UInt32} {i : Nat}, ws[i]? = some w →
    slice (wordsBytes ws) (4 * i) 4 = wordBytes w
  | [], i, h => by simp at h
  | v :: ws, 0, h => by
      obtain rfl : v = w := by simpa using h
      rw [Nat.mul_zero, slice_zero, wordsBytes, List.flatMap_cons]
      exact List.take_left' (length_wordBytes v)
  | v :: ws, i + 1, h => by
      have ih := @slice_wordsBytes w ws i (by simpa using h)
      rw [wordsBytes, List.flatMap_cons, ← wordsBytes, slice, List.drop_append,
        List.drop_eq_nil_of_le (by simp), List.nil_append, length_wordBytes]
      exact ih

/-! ## Words cut off -/

/-- The upper halfword is blank. -/
def Torn (w : UInt32) : Prop := 0xFFFF0000 ≤ w.toNat

theorem torn_of_bytes {bs : List UInt8} {o : Nat} (h2 : bs[o + 2]? = some 0xFF)
    (h3 : bs[o + 3]? = some 0xFF) : Torn (wordAt bs o) := by
  obtain ⟨hlt, h3'⟩ := List.getElem?_eq_some_iff.mp h3
  obtain ⟨hlt2, h2'⟩ := List.getElem?_eq_some_iff.mp h2
  have hbytes : slice bs o 4 = [bs[o], bs[o + 1], bs[o + 2], bs[o + 3]] := by
    rw [slice, List.drop_eq_getElem_cons (by omega), List.drop_eq_getElem_cons (by omega),
      List.drop_eq_getElem_cons (by omega), List.drop_eq_getElem_cons hlt]
    rfl
  have h0 : bs[o].toNat < 256 := bs[o].toNat_lt
  have h1 : bs[o + 1].toNat < 256 := bs[o + 1].toNat_lt
  have hff : (0xFF : UInt8).toNat = 255 := rfl
  rw [Torn, wordAt, hbytes, h2', h3']
  simp only [leNat, hff, UInt32.toNat_ofNat']
  omega

/-- When the first `2 * j` bytes of `bs` were written into blank memory, a
word that lies there at an even offset is the word of `bs`, or torn. -/
theorem wordAt_cut {bs : List UInt8} {o j k : Nat} (hbs : bs.length % 2 = 0) (ho : o % 2 = 0)
    (hk : o + 4 ≤ (bs.take (2 * j) ++ List.replicate k 0xFF).length) :
    wordAt (bs.take (2 * j) ++ List.replicate k 0xFF) o = wordAt bs o ∨
      Torn (wordAt (bs.take (2 * j) ++ List.replicate k 0xFF) o) := by
  have hcut : (bs.take (2 * j)).length = min (2 * j) bs.length := List.length_take
  have hall : (bs.take (2 * j) ++ List.replicate k 0xFF).length = (bs.take (2 * j)).length + k := by
    simp
  rcases Nat.lt_or_ge (bs.take (2 * j)).length (o + 4) with hlt | hge
  · right
    have hblank : ∀ i, (bs.take (2 * j)).length ≤ i → i < (bs.take (2 * j)).length + k →
        (bs.take (2 * j) ++ List.replicate k (0xFF : UInt8))[i]? = some 0xFF := by
      intro i hi hi'
      rw [List.getElem?_append_right hi, List.getElem?_replicate, if_pos (by omega)]
    exact torn_of_bytes (hblank _ (by omega) (by omega)) (hblank _ (by omega) (by omega))
  · left
    have hfront : slice (bs.take (2 * j)) o 4 = slice bs o 4 := by
      rw [slice, slice, List.drop_take, List.take_take, Nat.min_eq_left (by omega)]
    rw [wordAt, slice_append_left hge, hfront, wordAt]

open Float.Model in
/-- A torn word is not a finite float: the bits of its exponent are ones. -/
theorem not_isFinite_of_torn {w : UInt32} (h : Torn w) : (Float32.ofBits w).isFinite = false := by
  have hexp : @UnpackedFloat.unpackExponent Format.binary32 w.toBitVec = -1#_ := by
    apply BitVec.eq_of_toNat_eq
    have hlt : w.toNat < 2 ^ 32 := w.toNat_lt
    have hle : 0xFFFF0000 ≤ w.toNat := h
    have hbits : w.toNat / 2 ^ 23 % 2 ^ 8 = 255 := by omega
    simpa [UnpackedFloat.unpackExponent, Nat.shiftRight_eq_div_pow] using hbits
  -- an infinity or a NaN, and packing keeps the exponent of either
  have hunpack : ∀ v, @UnpackedFloat.unpackExponent Format.binary32 v = -1#_ →
      (UnpackedFloat.unpack Format.binary32 v).isFinite = false := by
    intro v hv
    delta UnpackedFloat.unpack
    rw [if_pos hv]
    split <;> rfl
  change (UnpackedFloat.unpack Format.binary32 (UnpackedFloat.pack Format.binary32
    (UnpackedFloat.unpack Format.binary32 w.toBitVec))).isFinite = false
  apply hunpack
  delta UnpackedFloat.unpack
  rw [if_pos hexp]
  split
  · exact UnpackedFloat.unpackExponent_packComponents
  · exact UnpackedFloat.unpackExponent_packComponents

end Base
