/-
# `Bootloader.Crc64` — CRC-64-WE

`class CRC64WE` of `util.hpp`: a 64-bit register that takes one byte at a
time, most significant bit first.  The image check feeds it piece by piece,
so what matters here is that the register after several calls of `add` is
that of one call over the concatenation.
-/
import UavcanAdapter.Bootloader.Types

namespace UavcanAdapter

/-- `class CRC64WE`. -/
structure CRC64WE where
  crc : UInt64 := 0xFFFFFFFFFFFFFFFF
deriving DecidableEq, Repr

namespace CRC64WE

def poly : UInt64 := 0x42F0E1EBA9EA3693
def mask : UInt64 := (1 : UInt64) <<< 63

/-- `crc_ = (crc_ & Mask) ? (crc_ << 1) ^ Poly : crc_ << 1`. -/
def shift (crc : UInt64) : UInt64 :=
  if crc &&& mask ≠ 0 then (crc <<< 1) ^^^ poly else crc <<< 1

/-- The body of the loop of `add`, its eight shifts unfolded as in the source. -/
def addByte (crc : UInt64) (byte : UInt8) : UInt64 :=
  shift (shift (shift (shift (shift (shift (shift (shift (crc ^^^ (byte.toUInt64 <<< 56)))))))))

/-- `CRC64WE::add`. -/
def add (c : CRC64WE) (data : List UInt8) : CRC64WE :=
  { crc := data.foldl addByte c.crc }

/-- `CRC64WE::get`. -/
def get (c : CRC64WE) : UInt64 := c.crc ^^^ 0xFFFFFFFFFFFFFFFF

@[simp] theorem add_nil (c : CRC64WE) : c.add [] = c := rfl

/-- Two calls of `add` are one call over the concatenation. -/
theorem add_append (c : CRC64WE) (xs ys : List UInt8) : c.add (xs ++ ys) = (c.add xs).add ys := by
  simp [add, List.foldl_append]

end CRC64WE

/-- CRC-64-WE of a byte string. -/
def crc64 (data : List UInt8) : UInt64 := (CRC64WE.add {} data).get

-- the check value of `util.hpp`, over the digits "123456789"
example : crc64 [0x31, 0x32, 0x33, 0x34, 0x35, 0x36, 0x37, 0x38, 0x39] = 0x62EC59E3F1A4F00A := by
  decide +kernel

end UavcanAdapter
