/-
# `Flash.AppStorage` — the application area of the flash

`board::AppStorageBackend`: offsets into the application area become
addresses, and what would reach past the end of the flash is cut off there.
`Target` is the part of the target the class depends on.

Reading sees the area as a byte string (`holds_content`), so everything
`Bootloader.Locate` proves about the search applies to the flash.
-/
import UavcanAdapter.Bootloader.Locate
import UavcanAdapter.Flash.Writer

namespace UavcanAdapter

open Base

/-- The flash of the target and where the application lies in it. -/
structure Target where
  hw : Fpec
  /-- the flash size register, in units of 1024 bytes -/
  flashSizeReg : UInt16
  /-- `APPLICATION_OFFSET` -/
  applicationOffset : Nat
  applicationOffset_le : applicationOffset ≤ 1024 * flashSizeReg.toNat

namespace Target

variable (t : Target)

/-- `board::getFlashSize`. -/
def getFlashSize : Nat := 1024 * t.flashSizeReg.toNat

def applicationAddress : Nat := flashBase + t.applicationOffset

def flashEnd : Nat := flashBase + t.getFlashSize

/-- The number of bytes of the application area. -/
def areaSize : Nat := t.getFlashSize - t.applicationOffset

/-- The content of the application area. -/
def content (f : Flash) : List UInt8 :=
  (List.range t.areaSize).map fun i => f.mem (t.applicationAddress + i)

theorem getFlashSize_lt : t.getFlashSize < 2 ^ 26 := by
  have h := t.flashSizeReg.toNat_lt
  simp only [getFlashSize]
  omega

theorem flashEnd_eq : t.flashEnd = t.applicationAddress + t.areaSize := by
  have h := t.applicationOffset_le
  simp only [flashEnd, applicationAddress, areaSize, getFlashSize]
  omega

theorem flashEnd_lt : t.flashEnd < 2 ^ 28 := by
  have h := t.getFlashSize_lt
  simp only [flashEnd, flashBase]
  omega

theorem areaSize_lt : t.areaSize < 2 ^ 28 := by
  have h := t.flashEnd_eq
  have h' := t.flashEnd_lt
  omega

@[simp] theorem length_content (f : Flash) : (t.content f).length = t.areaSize := by
  simp [content]

theorem slice_content (f : Flash) {o n : Nat} (h : o + n ≤ t.areaSize) :
    slice (t.content f) o n = (List.range n).map fun i => f.mem (t.applicationAddress + o + i) := by
  apply List.ext_getElem
  · simp
    omega
  · intro i h1 h2
    simp [slice, content, Nat.add_assoc]

end Target

namespace AppStorageBackend

variable (t : Target)

def errEraseFailed : Int := 9001
def errWriteFailed : Int := 9002

/-- `correctOffsetAndSize`: the corrected pair, or none for `false`. -/
def correctOffsetAndSize (offset size : Nat) : Option (Nat × Nat) :=
  let offset := wrap32 (offset + t.applicationAddress)
  if offset ≥ t.flashEnd then none
  else if wrap32 (offset + size) ≥ t.flashEnd then some (offset, t.flashEnd - offset)
  else some (offset, size)

/-- `AppStorageBackend::write`, with the flash it leaves in any case. -/
def write (offset : Nat) (c : Chunk) (f : Flash) : Flash × Call Int :=
  match correctOffsetAndSize t offset c.size with
  | none => (f, .ok 0)
  | some (offset, size) =>
      match FlashWriter.erase t.hw offset size f with
      | (f, .error e) => (f, .error e)
      | (f, .ok false) => (f, .ok (-errEraseFailed))
      | (f, .ok true) =>
          match FlashWriter.write t.hw offset c size f with
          | (f, .error e) => (f, .error e)
          | (f, .ok ok) => (f, .ok (if ok then toInt size else -errWriteFailed))

/-- `AppStorageBackend::read`. -/
def read (f : Flash) (offset size : Nat) : Except Int (List UInt8) :=
  match correctOffsetAndSize t offset size with
  | some (offset, size) => .ok ((List.range size).map fun i => f.mem (offset + i))
  | none => .ok []

variable {t} {f : Flash} {offset size : Nat}

/-- The correction never enlarges a request, and keeps it in the flash. -/
theorem correct_le {o n : Nat} (h : correctOffsetAndSize t offset size = some (o, n)) :
    n ≤ size ∧ o + n ≤ t.flashEnd ∨ n = size ∧ 2 ^ 32 ≤ o + size := by
  have hend := t.flashEnd_lt
  unfold correctOffsetAndSize at h
  generalize wrap32 (offset + t.applicationAddress) = addr at h
  by_cases h1 : addr ≥ t.flashEnd
  · simp [h1] at h
  by_cases h2 : wrap32 (addr + size) ≥ t.flashEnd
  · have hle : wrap32 (addr + size) ≤ addr + size := Nat.mod_le _ _
    simp only [if_neg h1, if_pos h2, Option.some.injEq, Prod.mk.injEq] at h
    omega
  · simp only [if_neg h1, if_neg h2, Option.some.injEq, Prod.mk.injEq] at h
    simp only [wrap32] at h2
    omega

/-- The correction of a request of moderate size. -/
theorem correct_eq (ho : offset < 2 ^ 30) (hs : size < 2 ^ 30) :
    correctOffsetAndSize t offset size =
      if t.areaSize ≤ offset then none
      else some (t.applicationAddress + offset, min size (t.areaSize - offset)) := by
  have hend := t.flashEnd_eq
  have hlt := t.flashEnd_lt
  have hwo : wrap32 (offset + t.applicationAddress) = offset + t.applicationAddress :=
    wrap32_of_lt (by omega)
  have hws : wrap32 (offset + t.applicationAddress + size) = offset + t.applicationAddress + size :=
    wrap32_of_lt (by omega)
  simp only [correctOffsetAndSize, hwo, hws]
  by_cases h1 : t.areaSize ≤ offset
  · rw [if_pos h1, if_pos (by omega)]
  rw [if_neg h1, if_neg (by omega)]
  by_cases h2 : offset + t.applicationAddress + size ≥ t.flashEnd
  · rw [if_pos h2, Nat.min_eq_right (by omega)]
    congr 2
    · omega
    · omega
  · rw [if_neg h2, Nat.min_eq_left (by omega), Nat.add_comm offset]

theorem length_read_le {bs : List UInt8} (h : read t f offset size = .ok bs) :
    bs.length ≤ size := by
  unfold read at h
  split at h
  · rename_i o n heq
    cases h
    rcases correct_le heq with hle | hle <;> simp [hle]
  · cases h
    simp

end AppStorageBackend

/-- `class AppStorageBackend` as the bootloader sees it. -/
def appStorageBackend (t : Target) : IAppStorageBackend Flash where
  beginUpgrade f := .ok (f, 0)
  write f offset c :=
    match AppStorageBackend.write t offset c f with
    | (f, .ok res) => .ok (f, res)
    | (_, .error e) => .error e
  endUpgrade f _ := .ok (f, 0)
  read := AppStorageBackend.read t
  length_read_le := AppStorageBackend.length_read_le

/-- Reading sees the application area as the byte string it is. -/
theorem holds_content (t : Target) (f : Flash) :
    (appStorageBackend t).Holds f romBufferSize (t.content f) := by
  intro offset size ho hs
  rw [t.length_content] at ho
  change AppStorageBackend.read t f offset size = _
  have hlen := t.areaSize_lt
  rw [AppStorageBackend.read, AppStorageBackend.correct_eq (by simp [romBufferSize] at ho; omega)
    (by simp [romBufferSize] at hs; omega)]
  by_cases hend : t.areaSize ≤ offset
  · rw [if_pos hend, slice_eq_nil (by simpa using hend)]
  · have hcut : slice (t.content f) offset size
        = slice (t.content f) offset (min size (t.areaSize - offset)) := by
      rw [slice, slice, List.take_eq_take_iff]
      simp
    rw [if_neg hend, hcut, t.slice_content f (by omega)]

/-- An erased flash with `bs` programmed into the application area. -/
def Target.flashed (t : Target) (bs : List UInt8) : Flash where
  mem a := if a < t.applicationAddress then 0xFF else bs.getD (a - t.applicationAddress) 0xFF

/-- A flash of two pages, the second of them for the application. -/
def Target.twoPages : Target where
  hw := .stm32f1 512
  flashSizeReg := 1
  applicationOffset := 512
  applicationOffset_le := by decide

/-! ## What an accepted descriptor says about the image -/

/-- `desc` lies at a multiple of eight inside the image it declares, the
image lies inside the storage, and the CRC of the image is right. -/
def SignedImage (content : List UInt8) (max : UInt32) (desc : AppDescriptor) : Prop :=
  ∃ o, o % 8 = 0 ∧ slice content o 32 = desc.toBytes ∧
    desc.signature = AppDescriptor.getSignatureValue ∧
    o + 32 ≤ desc.appInfo.imageSize.toNat ∧ desc.appInfo.imageSize.toNat ≤ content.length ∧
    desc.appInfo.imageSize.toNat ≤ max.toNat ∧
    0 < desc.appInfo.imageSize.toNat ∧ desc.appInfo.imageSize.toNat % 8 = 0 ∧
    crc64 (patch (content.take desc.appInfo.imageSize.toNat) (o + 8) (List.replicate 8 0))
      = desc.appInfo.imageCrc

/-- Where the declared image encloses the descriptor, the CRC covers exactly
as much of the image as there is. -/
theorem covered_eq_patch {content : List UInt8} {o size : Nat} (ho : o + 32 ≤ size) :
    covered content o size = patch (content.take size) (o + 8) (List.replicate 8 0) := by
  have hfront : slice content 0 (o + 8) = (content.take size).take (o + 8) := by
    rw [slice_zero, List.take_take, Nat.min_eq_left (by omega)]
  have hback : slice content (o + 16) (size - (o + 16)) = (content.take size).drop (o + 16) := by
    rw [slice, List.drop_take]
  rw [covered, patch, hfront, hback, List.length_replicate]

/-- An offset that passes the checks and declares an image around itself
carries a signed image. -/
theorem Accepts.signedImage {content : List UInt8} {max : UInt32} {o : Nat}
    (h : Accepts content max o)
    (ho : o + 32 ≤ (descAt content o).appInfo.imageSize.toNat)
    (hn : (descAt content o).appInfo.imageSize.toNat ≤ content.length) :
    SignedImage content max (descAt content o) := by
  obtain ⟨h8, hin, hvalid, hcrc⟩ := h
  obtain ⟨hsig, hpos, hmax, hmod⟩ := AppDescriptor.isValid_iff.mp hvalid
  refine ⟨o, h8, (toBytes_descAt hin).symm, hsig, ho, hn, hmax, hpos, hmod, ?_⟩
  rw [← covered_eq_patch ho, hcrc]

/-- A signed image passes the checks. -/
theorem SignedImage.accepts {content : List UInt8} {max : UInt32} {desc : AppDescriptor}
    (h : SignedImage content max desc) : ∃ o, Accepts content max o ∧ descAt content o = desc ∧
      o + 32 ≤ desc.appInfo.imageSize.toNat ∧ desc.appInfo.imageSize.toNat ≤ content.length := by
  obtain ⟨o, h8, hbytes, hsig, ho, hn, hmax, hpos, hmod, hcrc⟩ := h
  have hdesc : descAt content o = desc := by
    rw [descAt, hbytes, AppDescriptor.ofBytes_toBytes]
  refine ⟨o, ⟨h8, by omega, ?_, ?_⟩, hdesc, ho, hn⟩
  · rw [hdesc]
    exact AppDescriptor.isValid_iff.mpr ⟨hsig, hpos, hmax, hmod⟩
  · rw [hdesc, covered_eq_patch ho, hcrc]

/-- The descriptor the search accepts describes a signed image iff the first
offset that passes its checks declares an image that encloses the descriptor
and fits into the storage: the search checks neither. -/
theorem located_signedImage_iff (t : Target) (f : Flash) (max : UInt32) :
    (∀ desc, locateAppDescriptor (appStorageBackend t) f max = .ok (some desc) →
      SignedImage (t.content f) max desc) ↔
    ∀ o, FirstAccepted (t.content f) max o →
      o + 32 ≤ (descAt (t.content f) o).appInfo.imageSize.toNat ∧
        (descAt (t.content f) o).appInfo.imageSize.toNat ≤ (t.content f).length := by
  have hlen : (t.content f).length + 8 < 2 ^ 32 := by
    rw [t.length_content]
    have h := t.areaSize_lt
    omega
  have hloc := fun d => locate_eq_some max (d := d) (holds_content t f) hlen
  constructor
  · intro h o hfirst
    obtain ⟨o', hacc, hdesc, ho', hn⟩ := (h _ ((hloc _).mpr ⟨o, hfirst, rfl⟩)).accepts
    have hle : o ≤ o' := by
      by_contra hlt
      exact hfirst.2 o' (by omega) hacc
    exact ⟨by omega, hn⟩
  · intro h desc hdesc
    obtain ⟨o, hfirst, rfl⟩ := (hloc desc).mp hdesc
    obtain ⟨ho, hn⟩ := h o hfirst
    exact hfirst.1.signedImage ho hn

/-- A descriptor that declares an image of eight bytes, less than its own
size, with the CRC the search computes for it. -/
def truncatedImage : AppDescriptor where
  signature := AppDescriptor.getSignatureValue
  appInfo := { imageCrc := 979656335875133555, imageSize := 8 }
  reserved := Vector.replicate 6 0xFF

theorem located_not_signedImage :
    ¬∀ (t : Target) (f : Flash) (max : UInt32) (desc : AppDescriptor),
      locateAppDescriptor (appStorageBackend t) f max = .ok (some desc) →
        SignedImage (t.content f) max desc := by
  intro h
  have hloc : locateAppDescriptor (appStorageBackend .twoPages)
      (Target.twoPages.flashed truncatedImage.toBytes) 1024 = .ok (some truncatedImage) := by
    decide +kernel
  obtain ⟨o, -, -, -, ho, -⟩ := h _ _ _ _ hloc
  have hsize : truncatedImage.appInfo.imageSize.toNat = 8 := rfl
  omega

end UavcanAdapter
