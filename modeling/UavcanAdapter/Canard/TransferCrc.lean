/-
# `Canard.TransferCrc` — the CRC of a multi-frame transfer

CRC-16-CCITT over the signature of the data type and the payload.  The
register takes bytes most significant bit first, so it is a shift register in
the sense of `Base.ShiftRegister`, and what is known of those applies: a
payload that is damaged within sixteen consecutive bits has another CRC.
-/
import UavcanAdapter.Bootloader.BurstErrors

namespace UavcanAdapter

open Base

namespace TransferCrc

/-- The body of the loop in `crcAddByte`. -/
def shift (crcVal : UInt16) : UInt16 :=
  if crcVal &&& 0x8000 ≠ 0 then (crcVal <<< 1) ^^^ 0x1021 else crcVal <<< 1

/-- `crcAddByte`. -/
def crcAddByte (crcVal : UInt16) (byte : UInt8) : UInt16 :=
  (List.range 8).foldl (fun c _ => shift c) (crcVal ^^^ (byte.toUInt16 <<< 8))

/-- `crcAddSignature`. -/
def crcAddSignature (crcVal : UInt16) (dataTypeSignature : UInt64) : UInt16 :=
  (List.range 8).foldl
    (fun c i => crcAddByte c (dataTypeSignature >>> UInt64.ofNat (8 * i)).toUInt8) crcVal

/-- `crcAdd`. -/
def crcAdd (crcVal : UInt16) (bytes : List UInt8) : UInt16 := bytes.foldl crcAddByte crcVal

-- the check value of CRC-16-CCITT-FALSE, over the digits "123456789"
example : crcAdd 0xFFFF [0x31, 0x32, 0x33, 0x34, 0x35, 0x36, 0x37, 0x38, 0x39] = 0x29B1 := by
  decide +kernel

theorem crcAdd_append (c : UInt16) (xs ys : List UInt8) :
    crcAdd c (xs ++ ys) = crcAdd (crcAdd c xs) ys := List.foldl_append

/-- The CRC of a payload. -/
def transferCrc (dataTypeSignature : UInt64) (payload : List UInt8) : UInt16 :=
  crcAdd (crcAddSignature 0xFFFF dataTypeSignature) payload

/-! ## The register -/

/-- The polynomial as a word of bits. -/
def polyBits : BitVec 16 := 0x1021#16

theorem mask_ne_zero_iff (c : UInt16) : c &&& 0x8000 ≠ 0 ↔ c.toBitVec.msb = true := by
  have hand : (c &&& 0x8000).toBitVec = c.toBitVec &&& BitVec.twoPow 16 15 := rfl
  rw [ne_eq, ← UInt16.toBitVec_inj, hand, BitVec.and_twoPow, BitVec.msb_eq_getLsbD_last]
  split
  · rename_i h
    exact ⟨fun _ => h, fun _ => by decide⟩
  · rename_i h
    exact ⟨fun hno => absurd rfl hno, fun hmsb => absurd hmsb h⟩

theorem toBitVec_shift (c : UInt16) : (shift c).toBitVec = shiftIn polyBits c.toBitVec false := by
  rw [shift, shiftIn, Bool.xor_false]
  by_cases hmsb : c.toBitVec.msb = true
  · rw [if_pos ((mask_ne_zero_iff c).mpr hmsb), if_pos hmsb]
    rfl
  · rw [if_neg (fun h => hmsb ((mask_ne_zero_iff c).mp h)), if_neg hmsb]
    rfl

/-- A byte at the upper end of the register. -/
theorem topBits_shiftLeft (byte : UInt8) :
    topBits 8 (byte.toUInt16 <<< 8).toBitVec = byteBits byte ∧
      (byte.toUInt16 <<< 8).toBitVec <<< 8 = 0#16 := by
  have hall : ∀ n : Fin 256, topBits 8 ((UInt8.ofNat n.val).toUInt16 <<< 8).toBitVec =
      byteBits (UInt8.ofNat n.val) ∧
        ((UInt8.ofNat n.val).toUInt16 <<< 8).toBitVec <<< 8 = 0#16 := by
    decide +kernel
  simpa using hall ⟨byte.toNat, byte.toNat_lt⟩

/-- A byte is taken bit by bit. -/
theorem toBitVec_crcAddByte (c : UInt16) (byte : UInt8) :
    (crcAddByte c byte).toBitVec = shiftInAll polyBits c.toBitVec (byteBits byte) := by
  obtain ⟨htop, hzero⟩ := topBits_shiftLeft byte
  have hloop : ∀ (n : Nat) (c : UInt16), ((List.range n).foldl (fun c _ => shift c) c).toBitVec =
      shiftInAll polyBits c.toBitVec (List.replicate n false) := by
    intro n
    induction n with
    | zero => exact fun _ => rfl
    | succ n ih =>
        intro c
        rw [List.range_succ, List.foldl_append, List.foldl_cons, List.foldl_nil, toBitVec_shift,
          ih, List.replicate_succ', shiftInAll_append]
        rfl
  rw [crcAddByte, hloop, UInt16.toBitVec_xor, shiftInAll_replicate, htop, hzero, BitVec.xor_zero]

theorem toBitVec_crcAdd : ∀ (bytes : List UInt8) (c : UInt16),
    (crcAdd c bytes).toBitVec = shiftInAll polyBits c.toBitVec (bitString bytes)
  | [], _ => rfl
  | b :: bytes, c => by
      rw [← List.singleton_append, crcAdd_append, toBitVec_crcAdd bytes, List.singleton_append,
        bitString_cons, shiftInAll_append]
      exact congrArg (shiftInAll polyBits · (bitString bytes)) (toBitVec_crcAddByte c b)

/-- Two payloads of one length whose bits differ within sixteen consecutive
places only have different CRCs. -/
theorem crcAdd_ne_of_burst {c : UInt16} {x y : List UInt8} {k : Nat} (hlen : x.length = y.length)
    (hne : x ≠ y)
    (hburst : ∀ i, (bitString x)[i]? ≠ (bitString y)[i]? → k ≤ i ∧ i < k + 16) :
    crcAdd c x ≠ crcAdd c y := by
  have hodd : polyBits.getLsbD 0 = true := by decide
  have hbits : (bitString x).length = (bitString y).length := by
    rw [length_bitString, length_bitString, hlen]
  intro h
  have hrun := congrArg UInt16.toBitVec h
  rw [toBitVec_crcAdd, toBitVec_crcAdd] at hrun
  exact shiftInAll_ne_of_window hodd hbits (fun heq => hne (bitString_injective hlen heq)) hburst
    hrun

end TransferCrc

end UavcanAdapter
