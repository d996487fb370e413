/-
# `Interface.Marshaller` — a structure in memory that survives a reset

`class AppSharedMarshaller` of `app_shared.hpp`, which the application and
the bootloader have a copy of each.  The structure lies at the start of the
RAM with its CRC behind it, and nothing else says whether it is there.

The marshaller is a template over its container.  `Pod` is what it needs of
one: the bytes of its values, from which the values can be had back.  Under
`Holds` the memory is a mailbox with the container in it (`step_holds`), as
long as a container of zeros does not have the CRC zero.
-/
import UavcanAdapter.Base.Bytes
import UavcanAdapter.Base.Machine
import UavcanAdapter.Base.Mailbox
import UavcanAdapter.Bootloader.Crc64

namespace UavcanAdapter

open Base

/-- The first 256 bytes of the RAM, which no program uses for anything else. -/
structure Sram where
  bytes : List UInt8
  length_eq : bytes.length = 256

namespace Sram

/-- `memmove` from the start of the RAM. -/
def load (m : Sram) (n : Nat) : List UInt8 := m.bytes.take n

/-- `memmove` to the start of the RAM. -/
def store (m : Sram) (p : List UInt8) (h : p.length ≤ 256) : Sram where
  bytes := patch m.bytes 0 p
  length_eq := by rw [length_patch (by rw [m.length_eq]; omega), m.length_eq]

theorem load_store {m : Sram} {p : List UInt8} {n : Nat} (h : p.length ≤ 256)
    (hn : p.length = n) : (m.store p h).load n = p := by
  have hself : slice (patch m.bytes 0 p) 0 p.length = p := slice_patch_self (by omega)
  rw [slice_zero, hn] at hself
  exact hself

end Sram

/-- A container type: the bytes of its values in memory. -/
structure Pod (C : Type) where
  size : Nat
  toBytes : C → List UInt8
  ofBytes : List UInt8 → C
  length_toBytes : ∀ c, (toBytes c).length = size
  ofBytes_toBytes : ∀ c, ofBytes (toBytes c) = c
  size_le : size ≤ 240

inductive AutoErase
  | eraseAfterRead
  | doNotErase
deriving DecidableEq, Repr

namespace AppSharedMarshaller

variable {C : Type} (pod : Pod C)

/-- `ContainerWrapper::CRCSize`. -/
def crcSize : Nat := 8

/-- The bytes of a `ContainerWrapper` made from a container. -/
def wrapper (c : C) : List UInt8 :=
  pod.toBytes c ++ leBytes crcSize (crc64 (pod.toBytes c)).toNat

/-- `ContainerWrapper::isCRCValid`, of a wrapper given by its bytes. -/
def isCRCValid (w : List UInt8) : Bool :=
  leBytes crcSize (crc64 (w.take pod.size)).toNat = w.drop pod.size

theorem length_wrapper (c : C) : (wrapper pod c).length = pod.size + crcSize := by
  rw [wrapper, List.length_append, pod.length_toBytes, length_leBytes]

theorem wrapper_le (c : C) : (wrapper pod c).length ≤ 256 := by
  have hsize := pod.size_le
  have hcrc : crcSize = 8 := rfl
  rw [length_wrapper]
  omega

theorem zeros_le : (List.replicate (pod.size + crcSize) (0 : UInt8)).length ≤ 256 := by
  have hsize := pod.size_le
  have hcrc : crcSize = 8 := rfl
  rw [List.length_replicate]
  omega

/-- `write`. -/
def write (c : C) (m : Sram) : Sram := m.store (wrapper pod c) (wrapper_le pod c)

/-- `erase`. -/
def erase (m : Sram) : Sram := m.store (List.replicate (pod.size + crcSize) 0) (zeros_le pod)

/-- `read`: the structure, whether it is valid, and the memory afterwards. -/
def read (autoErase : AutoErase) (m : Sram) : (C × Bool) × Sram :=
  let w := m.load (pod.size + crcSize)
  let valid := isCRCValid pod w
  ((pod.ofBytes (w.take pod.size), valid),
    if valid ∧ autoErase = .eraseAfterRead then erase pod m else m)

/-! ## The memory as a mailbox -/

/-- The memory holds `box`: a container behind which its CRC lies, or none. -/
def Holds (m : Sram) (box : Option C) : Prop :=
  match box with
  | some c => m.load (pod.size + crcSize) = wrapper pod c
  | none => isCRCValid pod (m.load (pod.size + crcSize)) = false

section Laws

variable {pod} {m : Sram} {c : C} {autoErase : AutoErase}

theorem take_wrapper : (wrapper pod c).take pod.size = pod.toBytes c := by
  rw [wrapper, ← pod.length_toBytes c, List.take_left]

theorem isCRCValid_wrapper : isCRCValid pod (wrapper pod c) = true := by
  have hdrop : (wrapper pod c).drop pod.size = leBytes crcSize (crc64 (pod.toBytes c)).toNat := by
    rw [wrapper, ← pod.length_toBytes c, List.drop_left]
  rw [isCRCValid, take_wrapper, hdrop]
  exact decide_eq_true rfl

theorem holds_write : Holds pod (write pod c m) (some c) :=
  Sram.load_store _ (length_wrapper pod c)

/-- The erased memory is invalid, if the CRC of the erased container is not
zero itself. -/
theorem holds_erase (hzero : crc64 (List.replicate pod.size 0) ≠ 0) :
    Holds pod (erase pod m) none := by
  have hload : (erase pod m).load (pod.size + crcSize) = List.replicate (pod.size + crcSize) 0 :=
    Sram.load_store _ (List.length_replicate ..)
  have hlt : (crc64 (List.replicate pod.size 0)).toNat < 256 ^ crcSize := UInt64.toNat_lt _
  rw [Holds, hload, isCRCValid, List.take_replicate, List.drop_replicate,
    Nat.min_eq_left (Nat.le_add_right ..), Nat.add_sub_cancel_left]
  refine decide_eq_false fun heq => hzero ?_
  apply UInt64.toNat_inj.mp
  rw [← leNat_leBytes_of_lt hlt, heq]
  rfl

theorem read_of_holds_some (h : Holds pod m (some c)) :
    read pod autoErase m
      = ((c, true), if autoErase = .eraseAfterRead then erase pod m else m) := by
  have hload : m.load (pod.size + crcSize) = wrapper pod c := h
  simp only [read, hload, isCRCValid_wrapper, take_wrapper, pod.ofBytes_toBytes, true_and]

theorem read_of_holds_none (h : Holds pod m none) :
    (read pod autoErase m).1.2 = false ∧ (read pod autoErase m).2 = m := by
  have hinv : isCRCValid pod (m.load (pod.size + crcSize)) = false := h
  simp [read, hinv]

/-- A read reports what the memory holds. -/
theorem read_valid_iff {box : Option C} (h : Holds pod m box) :
    (read pod autoErase m).1.2 = true ↔ ∃ c, box = some c := by
  cases box with
  | none => simp [(read_of_holds_none h).1]
  | some c => simp [read_of_holds_some h]

theorem holds_none_of_invalid (h : (read pod autoErase m).1.2 = false) : Holds pod m none := h

end Laws

end AppSharedMarshaller

end UavcanAdapter
