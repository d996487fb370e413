/-
# `Tool.BootDescriptor` — the signing tool

`make_boot_descriptor.py`: it finds the descriptor in a firmware binary,
fills in the size of the image and its CRC, and pads the file.  Integers are
unbounded here, as they are in Python, and a method that raises is an
`Except`; a `FirmwareImage` carries its lazily computed attributes along.
-/
import UavcanAdapter.Bootloader.Locate

namespace UavcanAdapter

open Base

namespace Tool

/-- The exceptions the tool can run into. -/
inductive PyError
  | valueError
  | typeError
  | structError
deriving DecidableEq, Repr

/-! ## The descriptor -/

/-- `class AppDescriptor`. -/
structure AppDescriptor where
  signature : List UInt8
  imageCrc : Nat := 0
  imageSize : Nat := 0
  vcsCommit : Nat := 0
  versionMajor : Nat := 0
  versionMinor : Nat := 0
  reserved : List UInt8
deriving DecidableEq, Repr

namespace AppDescriptor

/-- `LENGTH`. -/
def length : Nat := 8 + 8 + 4 + 4 + 1 + 1 + 6

/-- `SIGNATURE`. -/
def signatureBytes : List UInt8 := [0x41, 0x50, 0x44, 0x65, 0x73, 0x63, 0x30, 0x30]

/-- `RESERVED`. -/
def reservedBytes : List UInt8 := List.replicate 6 0xFF

/-- The format character `ns` of `struct`: cut off or filled up with zeros. -/
def packString (n : Nat) (s : List UInt8) : List UInt8 := (s ++ List.replicate n 0).take n

/-- `pack`. -/
def pack (d : AppDescriptor) : Except PyError (List UInt8) :=
  if d.imageCrc < 256 ^ 8 ∧ d.imageSize < 256 ^ 4 ∧ d.vcsCommit < 256 ^ 4 ∧ d.versionMajor < 256 ∧
      d.versionMinor < 256 then
    .ok (packString 8 d.signature ++ leBytes 8 d.imageCrc ++ leBytes 4 d.imageSize ++
      leBytes 4 d.vcsCommit ++ leBytes 1 d.versionMajor ++ leBytes 1 d.versionMinor ++
      packString 6 d.reserved)
  else .error .structError

/-- `empty`. -/
def empty (d : AppDescriptor) : Bool :=
  d.signature == signatureBytes && d.imageCrc == 0 && d.imageSize == 0 &&
    d.reserved == reservedBytes

/-- `valid`. -/
def valid (d : AppDescriptor) : Bool :=
  d.signature == signatureBytes && d.imageCrc != 0 && decide (d.imageSize > 0) &&
    d.reserved == reservedBytes

/-- `unpack`. -/
def unpack (bytes : List UInt8) : Except PyError AppDescriptor :=
  if bytes.length = length then
    let d : AppDescriptor :=
      { signature := slice bytes 0 8
        imageCrc := leNat (slice bytes 8 8)
        imageSize := leNat (slice bytes 16 4)
        vcsCommit := leNat (slice bytes 20 4)
        versionMajor := leNat (slice bytes 24 1)
        versionMinor := leNat (slice bytes 25 1)
        reserved := slice bytes 26 6 }
    if ¬d.empty ∧ ¬d.valid then .error .valueError else .ok d
  else .error .structError

/-- `__init__`; whatever `unpack` raises becomes a `ValueError`. -/
def new (bytes : List UInt8) : Except PyError AppDescriptor :=
  if bytes.isEmpty then .ok { signature := signatureBytes, reserved := reservedBytes }
  else
    match unpack bytes with
    | .ok d => .ok d
    | .error _ => .error .valueError

end AppDescriptor

/-! ## The image -/

/-- `class FirmwareImage`: the buffer and the attributes, `none` for `None`. -/
structure FirmwareImage where
  contents : List UInt8
  padding : Nat := 8
  length : Option Nat := none
  descriptorOffset : Option Nat := none
  descriptor : Option AppDescriptor := none
deriving DecidableEq, Repr

/-- `MASK`. -/
def crcMask : Nat := 0xFFFFFFFFFFFFFFFF

/-- `POLY`. -/
def crcPoly : Nat := 0x42F0E1EBA9EA3693

/-- The body of the loop over the bits of a byte. -/
def crcBit (val : Nat) : Nat :=
  if val &&& (1 <<< 63) ≠ 0 then ((val <<< 1) &&& crcMask) ^^^ crcPoly else val <<< 1

/-- The body of the loop over the bytes. -/
def crcByte (val : Nat) (byte : UInt8) : Nat :=
  crcBit^[8] (val ^^^ ((byte.toNat <<< 56) &&& crcMask))

namespace FirmwareImage

/-- `length`.  The first call also settles how much padding there will be. -/
def getLength (im : FirmwareImage) : FirmwareImage × Nat :=
  if im.length.getD 0 = 0 then
    let length := im.contents.length
    if im.padding ≠ 0 then
      let mod := length % im.padding
      let padding := if mod ≠ 0 then im.padding - mod else 0
      ({ im with padding, length := some (length + padding) }, length + padding)
    else ({ im with length := some length }, length)
  else (im, im.length.getD 0)

/-- The loop of `app_descriptor_offset`, with `fuel` passes at most. -/
def searchLoop (contents : List UInt8) (length : Nat) : Nat → Nat → Option Nat
  | 0, _ => none
  | fuel + 1, offset =>
      if offset + AppDescriptor.length < length then
        match AppDescriptor.new (slice contents offset AppDescriptor.length) with
        | .ok _ => some offset
        | .error _ => searchLoop contents length fuel (offset + 1)
      else none

/-- `app_descriptor_offset`. -/
def appDescriptorOffset (im : FirmwareImage) : FirmwareImage × Option Nat :=
  if im.descriptorOffset.getD 0 = 0 then
    let (im, length) := im.getLength
    match searchLoop im.contents length length 0 with
    | some offset => ({ im with descriptorOffset := some offset }, some offset)
    | none => (im, im.descriptorOffset)
  else (im, im.descriptorOffset)

/-- `app_descriptor`. -/
def appDescriptor (im : FirmwareImage) : Except PyError (FirmwareImage × AppDescriptor) :=
  match im.descriptor with
  | some d => .ok (im, d)
  | none =>
      match im.appDescriptorOffset with
      | (_, none) => .error .typeError
      | (im, some offset) => do
          let d ← AppDescriptor.new (slice im.contents offset AppDescriptor.length)
          return ({ im with descriptor := some d }, d)

/-- `_write_descriptor_raw`, of descriptor `d`. -/
def writeDescriptorRaw (im : FirmwareImage) (d : AppDescriptor) : Except PyError FirmwareImage :=
  match im.descriptorOffset with
  | none => .error .typeError
  | some offset => do
      let bytes ← d.pack
      return { im with contents := patch im.contents offset bytes }

/-- `crc`. -/
def crc (im : FirmwareImage) : Except PyError (FirmwareImage × Nat) :=
  match im.appDescriptorOffset with
  | (_, none) => .error .typeError
  | (im, some offset) =>
      let crcOffset := offset + AppDescriptor.signatureBytes.length
      let content := patch im.contents crcOffset (List.replicate 8 0) ++
        List.replicate im.padding 0xFF
      .ok (im, (content.foldl crcByte crcMask &&& crcMask) ^^^ crcMask)

/-- `write_descriptor`. -/
def writeDescriptor (im : FirmwareImage) : Except PyError FirmwareImage := do
  let (im, length) := im.getLength
  let (im, d) ← im.appDescriptor
  let d := { d with imageSize := length, imageCrc := 0 }
  let im ← writeDescriptorRaw { im with descriptor := some d } d
  let (im, crc) ← im.crc
  let (im, d) ← im.appDescriptor
  let d := { d with imageCrc := crc }
  writeDescriptorRaw { im with descriptor := some d } d

/-- What `__exit__` writes to the file. -/
def file (im : FirmwareImage) : List UInt8 := im.contents ++ List.replicate im.padding 0xFF

end FirmwareImage

/-- The script: the output file for an input binary.  The descriptor of the
input goes into the name of the output file, so it has to be there. -/
def makeBootDescriptor (image : List UInt8) : Except PyError (List UInt8) := do
  let _ ← FirmwareImage.appDescriptor { contents := image }
  let out ← FirmwareImage.writeDescriptor { contents := image }
  return out.file

end Tool

end UavcanAdapter
