/-
# `Tool.SignThenVerify` — what the tool signs, the bootloader accepts

The tool and the bootloader share no code.  The three places where they have
to agree are settled one by one: the CRC (`crc_eq`, one register on unbounded
integers and one on 64 bits), the layout of the descriptor (`descAt_stamped`)
and the bytes the CRC is taken over (`covered_stamped`).  `output_eq` traces
the script to the file it writes, and `sign_then_verify` puts that file into
a storage in front of arbitrary other content.
-/
import UavcanAdapter.Tool.BootDescriptor

namespace UavcanAdapter

open Base

namespace Tool

/-! ## The CRC -/

theorem crcBit_toNat (c : UInt64) : crcBit c.toNat = (CRC64WE.shift c).toNat := by
  have hlt := c.toNat_lt
  have hmask : CRC64WE.mask.toNat = 1 <<< 63 := by decide
  have hpoly : CRC64WE.poly.toNat = crcPoly := by decide
  have hand : ∀ n : Nat, n &&& crcMask = n % 2 ^ 64 := fun n =>
    Nat.and_two_pow_sub_one_eq_mod n 64
  have hshift : (c <<< 1).toNat = (c.toNat <<< 1) % 2 ^ 64 := by
    rw [UInt64.toNat_shiftLeft]
    rfl
  have htop : c &&& CRC64WE.mask ≠ 0 ↔ c.toNat &&& (1 <<< 63) ≠ 0 := by
    rw [← hmask, ← UInt64.toNat_and, ne_eq, ne_eq, ← UInt64.toNat_inj]
    rfl
  by_cases h : c &&& CRC64WE.mask ≠ 0
  · rw [crcBit, if_pos (htop.mp h), CRC64WE.shift, if_pos h, UInt64.toNat_xor, hshift, hand, hpoly]
  · have hzero : c.toNat &&& (1 <<< 63) = 0 := by
      by_contra hne
      exact h (htop.mpr hne)
    have hsmall : c.toNat < 2 ^ 63 := by
      by_contra hge
      have htest : c.toNat.testBit 63 = true := by
        rw [Nat.testBit_eq_decide_div_mod_eq]
        simp
        omega
      have hbit : (c.toNat &&& (1 <<< 63)).testBit 63 = true := by
        rw [Nat.testBit_and, htest]
        decide
      rw [hzero] at hbit
      simp at hbit
    rw [crcBit, if_neg (fun hne => hne hzero), CRC64WE.shift, if_neg h, hshift]
    rw [Nat.shiftLeft_eq, Nat.mod_eq_of_lt (by omega)]

theorem crcByte_toNat (c : UInt64) (byte : UInt8) :
    crcByte c.toNat byte = (CRC64WE.addByte c byte).toNat := by
  have hbyte : (byte.toUInt64 <<< 56).toNat = (byte.toNat <<< 56) &&& crcMask := by
    rw [UInt64.toNat_shiftLeft]
    exact (Nat.and_two_pow_sub_one_eq_mod _ 64).symm
  simp only [crcByte, ← hbyte, ← UInt64.toNat_xor, Function.iterate_succ, Function.iterate_zero,
    Function.comp_apply, id, crcBit_toNat, CRC64WE.addByte]

/-- The CRC of the tool is the CRC of the bootloader. -/
theorem crc_eq (content : List UInt8) :
    (content.foldl crcByte crcMask &&& crcMask) ^^^ crcMask = (crc64 content).toNat := by
  have hfold : ∀ (xs : List UInt8) (c : UInt64),
      xs.foldl crcByte c.toNat = (xs.foldl CRC64WE.addByte c).toNat := by
    intro xs
    induction xs with
    | nil => intro c; rfl
    | cons x xs ih =>
        intro c
        rw [List.foldl_cons, List.foldl_cons, crcByte_toNat, ih]
  have hinit : crcMask = (0xFFFFFFFFFFFFFFFF : UInt64).toNat := by decide
  have hall : ∀ c : UInt64, c.toNat &&& crcMask = c.toNat := fun c => by
    rw [crcMask, Nat.and_two_pow_sub_one_eq_mod _ 64, Nat.mod_eq_of_lt c.toNat_lt]
  rw [crc64, CRC64WE.get, CRC64WE.add, UInt64.toNat_xor, ← hinit]
  conv_lhs => rw [hinit, hfold, ← hinit, hall]

/-! ## The descriptor -/

/-- Of bytes that there are a descriptor is made by `unpack`. -/
theorem AppDescriptor.new_eq_ok {bytes : List UInt8} {d : AppDescriptor} (hne : bytes ≠ []) :
    AppDescriptor.new bytes = .ok d ↔ AppDescriptor.unpack bytes = .ok d := by
  rw [AppDescriptor.new, if_neg (by simpa using hne)]
  cases AppDescriptor.unpack bytes with
  | ok d' => exact Iff.rfl
  | error e => exact ⟨fun h => (by cases h), fun h => (by cases h)⟩

/-- What a descriptor the tool recognises consists of. -/
theorem AppDescriptor.new_ok {bytes : List UInt8} {d : AppDescriptor} (hne : bytes ≠ [])
    (h : AppDescriptor.new bytes = .ok d) :
    bytes.length = 32 ∧ d.signature = signatureBytes ∧ d.reserved = reservedBytes ∧
      d.vcsCommit = leNat (slice bytes 20 4) ∧ d.versionMajor = leNat (slice bytes 24 1) ∧
      d.versionMinor = leNat (slice bytes 25 1) := by
  have hunpack := (AppDescriptor.new_eq_ok hne).mp h
  rw [AppDescriptor.unpack] at hunpack
  split at hunpack
  swap
  · cases hunpack
  rename_i hlen
  simp only at hunpack
  split at hunpack
  · cases hunpack
  rename_i hok
  cases hunpack
  rw [not_and_or, not_not, not_not] at hok
  refine ⟨hlen, ?_, ?_, rfl, rfl, rfl⟩
  · rcases hok with hok | hok <;> simp [empty, valid] at hok <;> tauto
  · rcases hok with hok | hok <;> simp [empty, valid] at hok <;> tauto

/-- The search ends at an offset where there is a descriptor. -/
theorem searchLoop_some {contents : List UInt8} {length o : Nat} : ∀ (fuel offset : Nat),
    FirmwareImage.searchLoop contents length fuel offset = some o →
      o + 32 < length ∧ ∃ d, AppDescriptor.new (slice contents o 32) = .ok d
  | 0, _, h => by cases h
  | fuel + 1, offset, h => by
      rw [FirmwareImage.searchLoop] at h
      split at h
      · rename_i hlt
        split at h
        · rename_i d hd
          cases h
          exact ⟨hlt, d, hd⟩
        · exact searchLoop_some fuel (offset + 1) h
      · cases h

/-- The last sixteen bytes of a descriptor. -/
def tail (d : AppDescriptor) (size : Nat) : List UInt8 :=
  leBytes 4 size ++ leBytes 4 d.vcsCommit ++ leBytes 1 d.versionMajor ++
    leBytes 1 d.versionMinor ++ AppDescriptor.reservedBytes

@[simp] theorem length_tail (d : AppDescriptor) (size : Nat) : (tail d size).length = 16 := rfl

theorem leNat_slice_lt (bs : List UInt8) (o n : Nat) : leNat (slice bs o n) < 256 ^ n :=
  lt_of_lt_of_le (leNat_lt _) (Nat.pow_le_pow_right (by norm_num) (by simp))

/-- A recognised descriptor with a new size and CRC packs iff they fit. -/
theorem pack_eq {bytes : List UInt8} {d : AppDescriptor} (hne : bytes ≠ [])
    (h : AppDescriptor.new bytes = .ok d) (crc size : Nat) :
    AppDescriptor.pack { d with imageCrc := crc, imageSize := size } =
      if crc < 256 ^ 8 ∧ size < 256 ^ 4 then
        .ok (AppDescriptor.signatureBytes ++ leBytes 8 crc ++ tail d size)
      else .error .structError := by
  obtain ⟨-, hsig, hres, hvcs, hmajor, hminor⟩ := AppDescriptor.new_ok hne h
  have hv : d.vcsCommit < 256 ^ 4 := hvcs ▸ leNat_slice_lt bytes 20 4
  have ha : d.versionMajor < 256 := hmajor ▸ leNat_slice_lt bytes 24 1
  have hi : d.versionMinor < 256 := hminor ▸ leNat_slice_lt bytes 25 1
  have hps : AppDescriptor.packString 8 AppDescriptor.signatureBytes
      = AppDescriptor.signatureBytes := by decide
  have hpr : AppDescriptor.packString 6 AppDescriptor.reservedBytes
      = AppDescriptor.reservedBytes := by decide
  by_cases hfit : crc < 256 ^ 8 ∧ size < 256 ^ 4
  · rw [AppDescriptor.pack, if_pos ⟨hfit.1, hfit.2, hv, ha, hi⟩, if_pos hfit, hsig, hres, hps, hpr]
    simp only [tail, List.append_assoc]
  · rw [AppDescriptor.pack, if_neg (fun hall => hfit ⟨hall.1, hall.2.1⟩), if_neg hfit]

/-! ## The file the script writes -/

/-- The number of bytes the tool adds to an image. -/
def padLength (n : Nat) : Nat := if n % 8 ≠ 0 then 8 - n % 8 else 0

theorem padLength_spec (n : Nat) : padLength n < 8 ∧ (n + padLength n) % 8 = 0 := by
  unfold padLength
  split <;> omega

/-- The image with a descriptor of this CRC and size at `o`, padded. -/
def stamped (input : List UInt8) (o : Nat) (d : AppDescriptor) (crc : List UInt8) (size : Nat) :
    List UInt8 :=
  input.take o ++ AppDescriptor.signatureBytes ++ crc ++
    (tail d size ++ input.drop (o + 32) ++ List.replicate (padLength input.length) 0xFF)

/-- The image object as soon as its size is known. -/
def measured (input : List UInt8) : FirmwareImage where
  contents := input
  padding := padLength input.length
  length := some (input.length + padLength input.length)

theorem getLength_new (input : List UInt8) :
    FirmwareImage.getLength { contents := input } =
      (measured input, input.length + padLength input.length) := rfl

theorem getLength_measured {input : List UInt8} (h : input ≠ []) :
    (measured input).getLength = (measured input, input.length + padLength input.length) := by
  have hpos := List.length_pos_iff.mpr h
  rw [FirmwareImage.getLength, measured, if_neg (by rw [Option.getD_some]; omega)]
  rfl

variable {input : List UInt8} {o : Nat}

theorem slice_ne_nil (h : o < input.length) : slice input o 32 ≠ [] := by
  intro hnil
  have hlen := length_slice input o 32
  rw [hnil, List.length_nil] at hlen
  omega

/-- What the tool knows about an input in which it finds a descriptor. -/
theorem offset_spec (h : (FirmwareImage.appDescriptorOffset { contents := input }).2 = some o) :
    FirmwareImage.searchLoop input (input.length + padLength input.length)
      (input.length + padLength input.length) 0 = some o ∧
    o + 32 ≤ input.length ∧ ∃ d, AppDescriptor.new (slice input o 32) = .ok d := by
  have hsearch : FirmwareImage.searchLoop input (input.length + padLength input.length)
      (input.length + padLength input.length) 0 = some o := by
    rw [FirmwareImage.appDescriptorOffset] at h
    simp only [getLength_new, Option.getD_none, if_true] at h
    split at h
    · rename_i o' heq
      rw [← h]
      exact heq
    · cases h
  obtain ⟨hlt, d, hd⟩ := searchLoop_some _ _ hsearch
  have hpad := (padLength_spec input.length).1
  have ho : o < input.length := by omega
  have hlen := (AppDescriptor.new_ok (slice_ne_nil ho) hd).1
  rw [length_slice] at hlen
  exact ⟨hsearch, by omega, d, hd⟩

theorem crc_of_offset {im : FirmwareImage} (ho : 0 < o) (h : im.descriptorOffset = some o) :
    im.crc = .ok (im, (crc64 (patch im.contents (o + 8) (List.replicate 8 0) ++
      List.replicate im.padding 0xFF)).toNat) := by
  have hoff : im.appDescriptorOffset = (im, some o) := by
    rw [FirmwareImage.appDescriptorOffset, if_neg (by rw [h, Option.getD_some]; omega), h]
  rw [FirmwareImage.crc, hoff]
  simp only [crc_eq]
  rfl

theorem appDescriptor_of_some {im : FirmwareImage} {d : AppDescriptor}
    (h : im.descriptor = some d) : im.appDescriptor = .ok (im, d) := by
  rw [FirmwareImage.appDescriptor, h]

/-- The file for an input: the CRC is that of the file with zeros in place
of the CRC.  An image of 4 GiB or more cannot be described. -/
theorem output_eq (h : (FirmwareImage.appDescriptorOffset { contents := input }).2 = some o)
    (ho : 0 < o) {d : AppDescriptor} (hd : AppDescriptor.new (slice input o 32) = .ok d) :
    makeBootDescriptor input =
      if input.length + padLength input.length < 2 ^ 32 then
        .ok (stamped input o d
          (leBytes 8 (crc64 (stamped input o d (List.replicate 8 0)
            (input.length + padLength input.length))).toNat)
          (input.length + padLength input.length))
      else .error .structError := by
  obtain ⟨hsearch, hin, -⟩ := offset_spec h
  have hne : slice input o 32 ≠ [] := slice_ne_nil (by omega)
  have hinput : input ≠ [] := by
    intro hnil
    simp [hnil] at hin
  set size := input.length + padLength input.length with hsize
  -- the three states of the lookup: image, offset, descriptor
  have hfind : ∀ im : FirmwareImage, im = { contents := input } ∨ im = measured input →
      im.appDescriptor = .ok ({ measured input with
        descriptorOffset := some o, descriptor := some d }, d) := by
    intro im him
    have hoff : im.appDescriptorOffset
        = ({ measured input with descriptorOffset := some o }, some o) := by
      rcases him with rfl | rfl
      · simp only [FirmwareImage.appDescriptorOffset, getLength_new, Option.getD_none, if_true]
        rw [show (measured input).contents = input from rfl, hsearch]
      · rw [FirmwareImage.appDescriptorOffset, if_pos (by rfl), getLength_measured hinput]
        simp only
        rw [show (measured input).contents = input from rfl, hsearch]
    have hnone : im.descriptor = none := by rcases him with rfl | rfl <;> rfl
    rw [FirmwareImage.appDescriptor, hnone]
    simp only [hoff]
    rw [show (measured input).contents = input from rfl, show AppDescriptor.length = 32 from rfl, hd]
    rfl
  by_cases hfit : size < 2 ^ 32
  swap
  · rw [if_neg hfit, makeBootDescriptor, hfind _ (Or.inl rfl)]
    simp only [FirmwareImage.writeDescriptor, getLength_new, hfind _ (Or.inr rfl),
      FirmwareImage.writeDescriptorRaw, pack_eq hne hd, bind, Except.bind]
    rw [if_neg (by rintro ⟨-, hlt⟩; omega)]
  -- the buffer with the first descriptor, with zeros for the CRC, and with the second descriptor
  have hlen₁ : (AppDescriptor.signatureBytes ++ leBytes 8 0 ++ tail d size).length = 32 := rfl
  have hfirst : patch input o (AppDescriptor.signatureBytes ++ leBytes 8 0 ++ tail d size)
      = input.take o ++ AppDescriptor.signatureBytes ++ leBytes 8 0 ++
        (tail d size ++ input.drop (o + 32)) := by
    rw [patch, hlen₁]
    simp only [List.append_assoc]
  have hzero : patch (patch input o (AppDescriptor.signatureBytes ++ leBytes 8 0 ++ tail d size))
        (o + 8) (List.replicate 8 0) ++ List.replicate (padLength input.length) 0xFF
      = stamped input o d (List.replicate 8 0) size := by
    have hpos : (input.take o ++ AppDescriptor.signatureBytes).length = o + 8 := by
      simp [AppDescriptor.signatureBytes]
      omega
    rw [hfirst, ← hpos, patch_append_append (by simp)]
    simp only [stamped, List.append_assoc]
  have hsecond : ∀ crc, patch (patch input o
        (AppDescriptor.signatureBytes ++ leBytes 8 0 ++ tail d size)) o
        (AppDescriptor.signatureBytes ++ leBytes 8 crc ++ tail d size) ++
          List.replicate (padLength input.length) 0xFF
      = stamped input o d (leBytes 8 crc) size := by
    intro crc
    have hlen : (AppDescriptor.signatureBytes ++ leBytes 8 crc ++ tail d size).length = 32 := rfl
    rw [patch_patch (by rw [hlen, hlen₁]) (by omega), patch, hlen]
    simp only [stamped, List.append_assoc]
  have hcrc : (crc64 (stamped input o d (List.replicate 8 0) size)).toNat < 256 ^ 8 :=
    UInt64.toNat_lt _
  have hmeasured : (measured input).contents = input ∧
      (measured input).padding = padLength input.length := ⟨rfl, rfl⟩
  rw [if_pos hfit, makeBootDescriptor, hfind _ (Or.inl rfl)]
  simp only [FirmwareImage.writeDescriptor, getLength_new, hfind _ (Or.inr rfl), ← hsize,
    FirmwareImage.writeDescriptorRaw, pack_eq hne hd, bind, Except.bind, pure, Except.pure]
  rw [if_pos ⟨by norm_num, by omega⟩]
  simp only [crc_of_offset ho, hmeasured, hzero]
  rw [appDescriptor_of_some rfl]
  simp only [pack_eq hne hd]
  rw [if_pos ⟨hcrc, by omega⟩]
  simp only [FirmwareImage.file, hsecond]

/-! ## What the bootloader makes of the file -/

/-- The descriptor the tool wrote, as the bootloader reads it. -/
def signedDesc (input : List UInt8) (o : Nat) (crc : UInt64) (size : Nat) :
    UavcanAdapter.AppDescriptor where
  signature := UavcanAdapter.AppDescriptor.getSignatureValue
  appInfo := { (descAt input o).appInfo with imageCrc := crc, imageSize := UInt32.ofNat size }
  reserved := Vector.replicate 6 0xFF

theorem leBytes_one_slice {bs : List UInt8} {i : Nat} (h : i < bs.length) :
    leBytes 1 (leNat (slice bs i 1)) = [bs.getD i 0] := by
  have hone : slice bs i 1 = [bs.getD i 0] := by
    rw [slice, List.drop_eq_getElem_cons h, List.getD_eq_getElem?_getD, List.getElem?_eq_getElem h]
    rfl
  rw [hone]
  exact leBytes_leNat [bs.getD i 0]

/-- Both sides lay the descriptor out in the same way. -/
theorem toBytes_signedDesc {d : AppDescriptor} (hin : o + 32 ≤ input.length)
    (hd : AppDescriptor.new (slice input o 32) = .ok d) (crc : UInt64) {size : Nat}
    (hsize : size < 2 ^ 32) :
    (signedDesc input o crc size).toBytes =
      AppDescriptor.signatureBytes ++ leBytes 8 crc.toNat ++ tail d size := by
  obtain ⟨hlen, -, -, hvcs, hmajor, hminor⟩ :=
    AppDescriptor.new_ok (slice_ne_nil (by omega)) hd
  have hs : (UInt32.ofNat size).toNat = size := UInt32.toNat_ofNat_of_lt' hsize
  have hv : (descAt input o).appInfo.vcsCommit.toNat = d.vcsCommit := by
    rw [hvcs]
    exact UInt32.toNat_ofNat_of_lt' (leNat_slice_lt _ 20 4)
  have hver : leBytes 1 d.versionMajor ++ leBytes 1 d.versionMinor
      = [(descAt input o).appInfo.majorVersion, (descAt input o).appInfo.minorVersion] := by
    rw [hmajor, hminor, leBytes_one_slice (by omega), leBytes_one_slice (by omega)]
    rfl
  rw [UavcanAdapter.AppDescriptor.toBytes, signedDesc]
  simp only [hs, hv, tail, ← hver, List.append_assoc]
  rfl

section Stamped

variable {d : AppDescriptor} {crc rest : List UInt8} {size : Nat}

theorem length_stamped (hin : o + 32 ≤ input.length) (hcrc : crc.length = 8) :
    (stamped input o d crc size).length = input.length + padLength input.length := by
  simp [stamped, AppDescriptor.signatureBytes, hcrc]
  omega

/-- The descriptor lies where the tool found it. -/
theorem slice_stamped (hin : o + 32 ≤ input.length) (hcrc : crc.length = 8) :
    slice (stamped input o d crc size ++ rest) o 32 =
      AppDescriptor.signatureBytes ++ crc ++ tail d size := by
  have hlen : (input.take o).length = o := by simp; omega
  have hmid : (AppDescriptor.signatureBytes ++ crc ++ tail d size).length = 32 := by
    simp [AppDescriptor.signatureBytes, hcrc]
  have h := slice_append_append (x := input.take o)
    (y := AppDescriptor.signatureBytes ++ crc ++ tail d size)
    (z := input.drop (o + 32) ++ List.replicate (padLength input.length) 0xFF ++ rest)
  rw [hlen, hmid] at h
  rw [← h, stamped]
  simp only [List.append_assoc]

theorem slice_crc_stamped (hin : o + 32 ≤ input.length) (hcrc : crc.length = 8) :
    slice (stamped input o d crc size) (o + 8) 8 = crc := by
  have hlen : (input.take o ++ AppDescriptor.signatureBytes).length = o + 8 := by
    simp [AppDescriptor.signatureBytes]
    omega
  have h := slice_append_append (x := input.take o ++ AppDescriptor.signatureBytes) (y := crc)
    (z := tail d size ++ input.drop (o + 32) ++ List.replicate (padLength input.length) 0xFF)
  rwa [hlen, hcrc] at h

/-- The bootloader takes the CRC over the bytes the tool took it over,
whatever the CRC field holds and whatever follows the image. -/
theorem covered_stamped (hin : o + 32 ≤ input.length) (hcrc : crc.length = 8) :
    covered (stamped input o d crc size ++ rest) o (input.length + padLength input.length) =
      stamped input o d (List.replicate 8 0) size := by
  have hlen : (input.take o ++ AppDescriptor.signatureBytes).length = o + 8 := by
    simp [AppDescriptor.signatureBytes]
    omega
  have hlen' : (input.take o ++ AppDescriptor.signatureBytes ++ crc).length = o + 16 := by
    rw [List.length_append, hlen, hcrc]
  set back := tail d size ++ input.drop (o + 32) ++ List.replicate (padLength input.length) 0xFF
    with hback
  have hlen'' : back.length = input.length + padLength input.length - (o + 16) := by
    simp [hback]
    omega
  have hfront : slice (stamped input o d crc size ++ rest) 0 (o + 8)
      = input.take o ++ AppDescriptor.signatureBytes := by
    rw [slice_zero, stamped, ← hback, List.append_assoc, List.append_assoc]
    exact List.take_left' hlen
  have hrear : slice (stamped input o d crc size ++ rest) (o + 16) back.length = back := by
    have h := slice_append_append (x := input.take o ++ AppDescriptor.signatureBytes ++ crc)
      (y := back) (z := rest)
    rwa [hlen'] at h
  rw [covered, hfront, ← hlen'', hrear]
  rfl

end Stamped

/-- The offset of the descriptor passes every check of the bootloader. -/
theorem accepts_stamped {d : AppDescriptor} (rest : List UInt8) {max : UInt32}
    (hin : o + 32 ≤ input.length) (h8 : o % 8 = 0)
    (hd : AppDescriptor.new (slice input o 32) = .ok d)
    (hmax : input.length + padLength input.length ≤ max.toNat) {crc : UInt64}
    (hcrc : crc = crc64 (stamped input o d (List.replicate 8 0)
      (input.length + padLength input.length))) :
    Accepts (stamped input o d (leBytes 8 crc.toNat) (input.length + padLength input.length) ++ rest)
        max o ∧
      descAt (stamped input o d (leBytes 8 crc.toNat) (input.length + padLength input.length) ++ rest)
        o = signedDesc input o crc (input.length + padLength input.length) := by
  obtain ⟨-, hmod⟩ := padLength_spec input.length
  have hmaxlt := max.toNat_lt
  have hsize : input.length + padLength input.length < 2 ^ 32 := by omega
  have hbytes := toBytes_signedDesc hin hd crc hsize
  have hdesc : descAt (stamped input o d (leBytes 8 crc.toNat)
      (input.length + padLength input.length) ++ rest) o
        = signedDesc input o crc (input.length + padLength input.length) := by
    rw [descAt, slice_stamped hin (length_leBytes _ _), ← hbytes,
      UavcanAdapter.AppDescriptor.ofBytes_toBytes]
  have hsize :
      (signedDesc input o crc (input.length + padLength input.length)).appInfo.imageSize.toNat
      = input.length + padLength input.length :=
    UInt32.toNat_ofNat_of_lt' (show _ < 2 ^ 32 by omega)
  refine ⟨⟨h8, ?_, ?_, ?_⟩, hdesc⟩
  · rw [List.length_append, length_stamped hin (length_leBytes _ _)]
    omega
  · rw [hdesc]
    exact UavcanAdapter.AppDescriptor.isValid_iff.mpr
      ⟨rfl, by rw [hsize]; omega, by rw [hsize]; exact hmax, by rw [hsize]; exact hmod⟩
  · rw [hdesc, hsize, covered_stamped hin (length_leBytes _ _), ← hcrc]
    rfl

/-- For every input in which the tool finds its descriptor at a positive
multiple of eight: the tool writes a file unless the image is too large to be
described, and a bootloader that admits the size of the file finds an
application in every storage that starts with it; the one the tool signed,
unless the signature also occurs in front of it. -/
theorem sign_then_verify
    (h : (FirmwareImage.appDescriptorOffset { contents := input }).2 = some o)
    (ho : 0 < o) (h8 : o % 8 = 0) :
    (input.length + 8 ≤ 2 ^ 32 → ∃ O, makeBootDescriptor input = .ok O) ∧
    ∀ (O : List UInt8) (max : UInt32), makeBootDescriptor input = .ok O → O.length ≤ max.toNat →
      ∀ (σ : Type) (b : IAppStorageBackend σ) (s : σ) (rest : List UInt8),
        b.Holds s romBufferSize (O ++ rest) → (O ++ rest).length + 8 < 2 ^ 32 →
        ∃ desc, locateAppDescriptor b s max = .ok (some desc) ∧
          ((∀ o' < o, o' % 8 = 0 → slice O o' 8 ≠ AppDescriptor.signatureBytes) →
            desc.appInfo.imageSize.toNat = O.length ∧
            desc.appInfo.majorVersion = (descAt input o).appInfo.majorVersion ∧
            desc.appInfo.minorVersion = (descAt input o).appInfo.minorVersion ∧
            desc.appInfo.vcsCommit = (descAt input o).appInfo.vcsCommit ∧
            leBytes 8 desc.appInfo.imageCrc.toNat = slice O (o + 8) 8) := by
  obtain ⟨-, hin, d, hd⟩ := offset_spec h
  have hout := output_eq h ho hd
  obtain ⟨hpad, -⟩ := padLength_spec input.length
  constructor
  · intro hsmall
    exact ⟨_, by rw [hout, if_pos (by omega)]⟩
  intro O max hO hmax σ b s rest hb hn
  rw [hout] at hO
  split at hO
  swap
  · cases hO
  rename_i hfit
  cases hO
  have hlen : (stamped input o d (leBytes 8 (crc64 (stamped input o d (List.replicate 8 0)
      (input.length + padLength input.length))).toNat) (input.length + padLength input.length)).length
        = input.length + padLength input.length := length_stamped hin (length_leBytes 8 _)
  rw [hlen] at hmax
  obtain ⟨hacc, hdesc⟩ := accepts_stamped rest hin h8 hd hmax rfl
  rcases locate_cases max hb hn with ⟨-, hno⟩ | ⟨o', hloc, hfirst⟩
  · exact absurd hacc (hno o)
  refine ⟨_, hloc, fun hdecoy => ?_⟩
  -- without a decoy the first offset that passes is the one the tool found
  have heq : o' = o := by
    rcases Nat.lt_trichotomy o' o with hlt | heq | hgt
    · have hsig := signature_descAt hfirst.1.2.1
      rw [(UavcanAdapter.AppDescriptor.isValid_iff.mp hfirst.1.2.2.1).1,
        slice_append_left (by rw [hlen]; omega)] at hsig
      exact absurd hsig.symm (hdecoy o' hlt hfirst.1.1)
    · exact heq
    · exact absurd hacc (hfirst.2 o hgt)
  rw [heq, hdesc, hlen]
  refine ⟨UInt32.toNat_ofNat_of_lt' hfit, rfl, rfl, rfl, ?_⟩
  rw [slice_crc_stamped hin (length_leBytes _ _)]
  rfl

/-- A binary with an empty descriptor behind its first eight bytes, padded to
a CRC and a size of its own and followed by one byte more. -/
def binary (crc size : Nat) : List UInt8 :=
  List.replicate 8 0xFF ++ AppDescriptor.signatureBytes ++ leBytes 8 crc ++ leBytes 4 size ++
    leBytes 4 0xBADC0DE ++ [1, 2] ++ AppDescriptor.reservedBytes ++ [0x42]

theorem sign_then_verify_binary : ∃ desc,
    locateAppDescriptor ramStorage (binary 0x958297B1B75594AB 48 ++ List.replicate 7 0xFF) 1024
      = .ok (some desc) ∧ desc.appInfo.imageSize.toNat = 48 ∧ desc.appInfo.majorVersion = 1 := by
  have hfound : (FirmwareImage.appDescriptorOffset { contents := binary 0 0 }).2 = some 8 := by
    decide +kernel
  have h := (sign_then_verify hfound (by decide) (by decide)).2
    (binary 0x958297B1B75594AB 48 ++ List.replicate 7 0xFF) 1024 (by decide +kernel) (by decide) _
    ramStorage (binary 0x958297B1B75594AB 48 ++ List.replicate 7 0xFF) []
    (by rw [List.append_nil]; exact fun _ _ _ _ => rfl) (by decide)
  obtain ⟨desc, hloc, hdesc⟩ := h
  obtain ⟨hsize, hmajor, -⟩ := hdesc (by decide)
  exact ⟨desc, hloc, hsize, hmajor⟩

end Tool

end UavcanAdapter
