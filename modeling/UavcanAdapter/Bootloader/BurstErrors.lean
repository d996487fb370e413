/-
# `Bootloader.BurstErrors` — damage the image CRC always sees

The eight shifts that `CRC64WE::add` makes for a byte are those of a register
that takes the eight bits of the byte (`toBitVec_addByte`), so a byte string
goes into it as the string of its bits (`toBitVec_foldl_addByte`).  The polynomial
has its lowest bit set, and eight bytes are as many bits as the register has:
two strings that differ within eight bytes only have different CRCs, however
many bytes follow and however the strings are cut into calls of `add`.
-/
import UavcanAdapter.Base.ShiftRegister
import UavcanAdapter.Bootloader.Crc64

namespace UavcanAdapter

open Base

/-- The bits of a byte, the most significant one first. -/
def byteBits (b : UInt8) : List Bool := topBits 8 b.toBitVec

theorem length_byteBits (b : UInt8) : (byteBits b).length = 8 := length_topBits 8 _

/-- The byte with the given bits. -/
def byteOf (bits : List Bool) : UInt8 := ⟨BitVec.ofNat 8 (bits.foldl (fun v b => 2 * v + b.toNat) 0)⟩

theorem byteOf_byteBits (b : UInt8) : byteOf (byteBits b) = b := by
  have hall : ∀ n : Fin 256, byteOf (byteBits (UInt8.ofNat n.val)) = UInt8.ofNat n.val := by
    decide +kernel
  simpa using hall ⟨b.toNat, b.toNat_lt⟩

/-- The bits of a byte string. -/
def bitString (bytes : List UInt8) : List Bool := bytes.flatMap byteBits

theorem bitString_cons (b : UInt8) (bytes : List UInt8) :
    bitString (b :: bytes) = byteBits b ++ bitString bytes := List.flatMap_cons

theorem bitString_append (x y : List UInt8) : bitString (x ++ y) = bitString x ++ bitString y :=
  List.flatMap_append

theorem length_bitString : ∀ (bytes : List UInt8), (bitString bytes).length = 8 * bytes.length
  | [] => rfl
  | b :: bytes => by
      rw [bitString_cons, List.length_append, length_byteBits, length_bitString bytes,
        List.length_cons]
      omega

theorem bitString_injective : ∀ {x y : List UInt8}, x.length = y.length →
    bitString x = bitString y → x = y
  | [], [], _, _ => rfl
  | a :: x, b :: y, hlen, h => by
      rw [bitString_cons, bitString_cons] at h
      obtain ⟨hab, hxy⟩ := List.append_inj h (by rw [length_byteBits, length_byteBits])
      have hbyte : a = b := by rw [← byteOf_byteBits a, hab, byteOf_byteBits]
      rw [hbyte, bitString_injective (by simpa using hlen) hxy]

namespace CRC64WE

/-- The polynomial as a word of bits. -/
def polyBits : BitVec 64 := poly.toBitVec

theorem mask_ne_zero_iff (crc : UInt64) : crc &&& mask ≠ 0 ↔ crc.toBitVec.msb = true := by
  have hand : (crc &&& mask).toBitVec = crc.toBitVec &&& BitVec.twoPow 64 63 := rfl
  rw [ne_eq, ← UInt64.toBitVec_inj, hand, BitVec.and_twoPow, BitVec.msb_eq_getLsbD_last]
  split
  · rename_i h
    exact ⟨fun _ => h, fun _ => by decide⟩
  · rename_i h
    exact ⟨fun hno => absurd rfl hno, fun hmsb => absurd hmsb h⟩

theorem toBitVec_shift (crc : UInt64) :
    (shift crc).toBitVec = shiftIn polyBits crc.toBitVec false := by
  rw [shift, shiftIn, Bool.xor_false]
  by_cases hmsb : crc.toBitVec.msb = true
  · rw [if_pos ((mask_ne_zero_iff crc).mpr hmsb), if_pos hmsb]
    rfl
  · rw [if_neg (fun h => hmsb ((mask_ne_zero_iff crc).mp h)), if_neg hmsb]
    rfl

/-- A byte at the upper end of the register. -/
theorem topBits_shiftLeft (byte : UInt8) :
    topBits 8 (byte.toUInt64 <<< 56).toBitVec = byteBits byte ∧
      (byte.toUInt64 <<< 56).toBitVec <<< 8 = 0#64 := by
  have hall : ∀ n : Fin 256, topBits 8 ((UInt8.ofNat n.val).toUInt64 <<< 56).toBitVec =
      byteBits (UInt8.ofNat n.val) ∧
        ((UInt8.ofNat n.val).toUInt64 <<< 56).toBitVec <<< 8 = 0#64 := by
    decide +kernel
  simpa using hall ⟨byte.toNat, byte.toNat_lt⟩

/-- A byte is taken bit by bit. -/
theorem toBitVec_addByte (crc : UInt64) (byte : UInt8) :
    (addByte crc byte).toBitVec = shiftInAll polyBits crc.toBitVec (byteBits byte) := by
  obtain ⟨htop, hzero⟩ := topBits_shiftLeft byte
  have hzeros : (addByte crc byte).toBitVec =
      shiftInAll polyBits (crc.toBitVec ^^^ (byte.toUInt64 <<< 56).toBitVec)
        (List.replicate 8 false) := by
    simp only [addByte, toBitVec_shift]
    rfl
  rw [hzeros, shiftInAll_replicate, htop, hzero, BitVec.xor_zero]

theorem toBitVec_foldl_addByte : ∀ (bytes : List UInt8) (crc : UInt64),
    (bytes.foldl addByte crc).toBitVec =
      shiftInAll polyBits crc.toBitVec (bitString bytes)
  | [], _ => rfl
  | b :: bytes, crc => by
      rw [List.foldl_cons, toBitVec_foldl_addByte bytes, toBitVec_addByte, bitString_cons,
        shiftInAll_append]

/-- Calls of `add` are one call over the concatenation. -/
theorem foldl_add (c : CRC64WE) (calls : List (List UInt8)) :
    calls.foldl add c = c.add calls.flatten := by
  induction calls generalizing c with
  | nil => rfl
  | cons data calls ih => rw [List.foldl_cons, ih, List.flatten_cons, add_append]

/-- Strings of one length that differ have different CRCs, if they differ within
eight bytes only. -/
theorem add_ne_of_window {c : CRC64WE} {x u v z : List UInt8} (hlen : u.length = v.length)
    (hwindow : u.length ≤ 8) (hne : u ≠ v) :
    (c.add (x ++ u ++ z)).get ≠ (c.add (x ++ v ++ z)).get := by
  have hodd : polyBits.getLsbD 0 = true := by decide
  have hbits : (bitString u).length = (bitString v).length := by
    rw [length_bitString, length_bitString, hlen]
  intro h
  have hcrc : (c.add (x ++ u ++ z)).crc = (c.add (x ++ v ++ z)).crc := by
    simpa [get] using h
  have hrun := congrArg UInt64.toBitVec hcrc
  simp only [add, toBitVec_foldl_addByte, bitString_append] at hrun
  exact shiftInAll_burst hodd hbits (by rw [length_bitString]; omega)
    (fun heq => hne (bitString_injective hlen heq)) _ _ hrun

/-- Damage within eight bytes of a string changes its CRC. -/
theorem burst_detected {as bs : List (List UInt8)} {p : Nat}
    (hlen : as.flatten.length = bs.flatten.length) (hne : as.flatten ≠ bs.flatten)
    (hwindow : ∀ i, as.flatten[i]? ≠ bs.flatten[i]? → p ≤ i ∧ i < p + 8) :
    (as.foldl add {}).get ≠ (bs.foldl add {}).get := by
  rw [foldl_add, foldl_add]
  generalize as.flatten = a at *
  generalize bs.flatten = b at *
  have hsplit : ∀ l : List UInt8, l = l.take p ++ slice l p 8 ++ l.drop (p + 8) := by
    intro l
    rw [slice, ← List.take_add, List.take_append_drop]
  have hsame : ∀ i, ¬(p ≤ i ∧ i < p + 8) → a[i]? = b[i]? :=
    fun i hi => not_not.mp fun hdiff => hi (hwindow i hdiff)
  have hfront : a.take p = b.take p := by
    apply List.ext_getElem?
    intro i
    rw [List.getElem?_take, List.getElem?_take]
    split
    · exact hsame i (by omega)
    · rfl
  have hback : a.drop (p + 8) = b.drop (p + 8) := by
    apply List.ext_getElem?
    intro i
    rw [List.getElem?_drop, List.getElem?_drop]
    exact hsame _ (by omega)
  rw [hsplit a, hsplit b, hfront, hback]
  refine add_ne_of_window ?_ ?_ ?_
  · rw [length_slice, length_slice, hlen]
  · rw [length_slice]
    exact Nat.min_le_left _ _
  · intro hmid
    apply hne
    rw [hsplit a, hsplit b, hfront, hback, hmid]

/-- One byte of nine, taken in three calls and in one. -/
theorem burst_detected_nine :
    ([[1, 2], [], [3, 4, 5, 6, 7, 8, 9]].foldl add {}).get ≠
      ([[1, 2, 3, 4, 0, 6, 7, 8, 9]].foldl add {}).get := by
  refine burst_detected (p := 4) (by decide) (by decide) fun i hdiff => ?_
  have hall : ∀ i < 9, [[1, 2], [], [3, 4, 5, 6, 7, 8, 9]].flatten[i]? ≠
      [[(1 : UInt8), 2, 3, 4, 0, 6, 7, 8, 9]].flatten[i]? → 4 ≤ i ∧ i < 4 + 8 := by decide
  rcases Nat.lt_or_ge i 9 with hlt | hge
  · exact hall i hlt hdiff
  · rw [List.getElem?_eq_none hge, List.getElem?_eq_none hge] at hdiff
    exact absurd rfl hdiff

end CRC64WE

end UavcanAdapter
