/-
# `Tool.DescriptorSearch` — which descriptor the tool finds

`app_descriptor_offset` walks over the file and stops at the first offset
whose 32 bytes are a descriptor.  The bound of the walk is the padded length
less 32, which is excluded: as soon as there is padding every offset is
looked at, but in a file of a multiple of eight bytes the last one is not
(`descriptor_search`).

The padded length and the offset are computed when they are first read.  What
reads leave behind is `Explored`; it does not change what later reads return.
-/
import UavcanAdapter.Base.Machine
import UavcanAdapter.Tool.SignThenVerify

namespace UavcanAdapter

open Base

namespace Tool

/-! ## The walk -/

/-- `AppDescriptor(bytes)` does not raise at this offset. -/
def accepted (contents : List UInt8) (offset : Nat) : Bool :=
  (AppDescriptor.new (slice contents offset AppDescriptor.length)).isOk

/-- The loop finds the first of the offsets it walks over. -/
theorem searchLoop_eq_find {contents : List UInt8} {length : Nat} : ∀ (fuel offset : Nat),
    length ≤ offset + fuel → FirmwareImage.searchLoop contents length fuel offset =
      (List.range' offset (length - 32 - offset)).find? (accepted contents)
  | 0, offset, h => by
      have hnone : length - 32 - offset = 0 := by omega
      rw [hnone]
      rfl
  | fuel + 1, offset, h => by
      rw [FirmwareImage.searchLoop]
      split
      · rename_i hlt
        have hlt' : offset + 32 < length := hlt
        have hsucc : length - 32 - offset = (length - 32 - (offset + 1)) + 1 := by omega
        rw [hsucc, List.range'_succ]
        split
        · rename_i d hd
          have hacc : accepted contents offset = true := by rw [accepted, hd]; rfl
          rw [List.find?_cons_of_pos hacc]
        · rename_i e he
          have hrej : ¬accepted contents offset = true := by
            rw [accepted, he]
            exact Bool.false_ne_true
          rw [List.find?_cons_of_neg hrej]
          exact searchLoop_eq_find fuel (offset + 1) (by omega)
      · rename_i hge
        have hge' : ¬offset + 32 < length := hge
        have hnone : length - 32 - offset = 0 := by omega
        rw [hnone]
        rfl

variable {input : List UInt8} {o : Nat} {im : FirmwareImage}

/-- The bytes of the file from `o` on begin with a descriptor. -/
def DescriptorAt (input : List UInt8) (o : Nat) : Prop :=
  o + 32 ≤ input.length ∧ ∃ d, AppDescriptor.unpack (slice input o 32) = .ok d

/-- `o` is the smallest offset of a descriptor. -/
def FirstDescriptor (input : List UInt8) (o : Nat) : Prop :=
  DescriptorAt input o ∧ ∀ o' < o, ¬DescriptorAt input o'

/-- What does not raise inside the file is a whole descriptor. -/
theorem accepted_iff (h : o < input.length) :
    accepted input o = true ↔ DescriptorAt input o := by
  have hne := slice_ne_nil h
  have hlen : AppDescriptor.length = 32 := rfl
  rw [accepted, hlen]
  constructor
  · intro hacc
    cases hd : AppDescriptor.new (slice input o 32) with
    | error e =>
        rw [hd] at hacc
        cases hacc
    | ok d =>
        have hwhole := (AppDescriptor.new_ok hne hd).1
        rw [length_slice] at hwhole
        exact ⟨by omega, d, (AppDescriptor.new_eq_ok hne).mp hd⟩
  · rintro ⟨-, d, hd⟩
    rw [(AppDescriptor.new_eq_ok hne).mpr hd]
    rfl

/-- The length that includes the padding. -/
def paddedLength (input : List UInt8) : Nat := input.length + padLength input.length

/-- What the walk over the whole file ends with. -/
def search (input : List UInt8) : Option Nat :=
  FirmwareImage.searchLoop input (paddedLength input) (paddedLength input) 0

/-- The walk ends at the first descriptor, if it comes that far. -/
theorem search_eq_some_iff :
    search input = some o ↔ FirstDescriptor input o ∧ o + 32 < paddedLength input := by
  have hpad := (padLength_spec input.length).1
  have hin : ∀ j, j + 32 < paddedLength input → j < input.length := by
    intro j hj
    rw [paddedLength] at hj
    omega
  rw [search, searchLoop_eq_find _ _ (by omega), List.find?_range'_eq_some]
  constructor
  · rintro ⟨hacc, hmem, hrej⟩
    have ho : o + 32 < paddedLength input := by
      rw [List.mem_range'_1] at hmem
      omega
    refine ⟨⟨(accepted_iff (hin o ho)).mp hacc, fun o' hlt hat => ?_⟩, ho⟩
    have hrej' := hrej o' (Nat.zero_le _) hlt
    rw [(accepted_iff (hin o' (by omega))).mpr hat] at hrej'
    cases hrej'
  · rintro ⟨⟨hat, hfirst⟩, ho⟩
    refine ⟨(accepted_iff (hin o ho)).mpr hat, ?_, fun j _ hj => ?_⟩
    · rw [List.mem_range'_1]
      omega
    · rw [Bool.not_eq_true', Bool.eq_false_iff]
      exact fun hacc => hfirst j hj ((accepted_iff (hin j (by omega))).mp hacc)

/-! ## Reading the attributes -/

/-- The attributes of a `FirmwareImage`. -/
inductive Read
  | length
  | appDescriptorOffset
  | appDescriptor
  | crc
deriving DecidableEq, Repr

/-- The object after an attribute was read.  An attribute that raises does so
behind the search for the descriptor. -/
def readAttribute (im : FirmwareImage) : Read → FirmwareImage
  | .length => im.getLength.1
  | .appDescriptorOffset => im.appDescriptorOffset.1
  | .appDescriptor =>
      match im.appDescriptor with
      | .ok (im', _) => im'
      | .error _ => im.appDescriptorOffset.1
  | .crc =>
      match im.crc with
      | .ok (im', _) => im'
      | .error _ => im.appDescriptorOffset.1

/-- An image that is opened and read. -/
def reads (input : List UInt8) : Machine FirmwareImage Read where
  init im := im = { contents := input }
  step im r im' := im' = readAttribute im r

/-- What is known of an object whose attributes were read. -/
structure Explored (input : List UInt8) (im : FirmwareImage) : Prop where
  contents : im.contents = input
  length : (im.length = none ∧ im.padding = 8) ∨
    (im.length = some (paddedLength input) ∧ im.padding = padLength input.length)
  offset : im.descriptorOffset = none ∨ im.descriptorOffset = search input

/-- The length is the padded one, whether it was read before or not. -/
theorem Explored.getLength (h : Explored input im) : im.getLength =
    ({ im with padding := padLength input.length, length := some (paddedLength input) },
      paddedLength input) := by
  obtain ⟨contents, padding, length, offset, desc⟩ := im
  obtain ⟨hcontents, hlength, -⟩ := h
  obtain rfl : contents = input := hcontents
  rcases hlength with ⟨hlen, hpad⟩ | ⟨hlen, hpad⟩
  · obtain rfl : length = none := hlen
    obtain rfl : padding = 8 := hpad
    rfl
  · obtain rfl : length = some (paddedLength contents) := hlen
    obtain rfl : padding = padLength contents.length := hpad
    rw [FirmwareImage.getLength]
    split
    · rename_i hzero
      have hzero' : paddedLength contents = 0 := hzero
      have hnil : contents.length = 0 := by
        rw [paddedLength] at hzero'
        omega
      obtain rfl := List.length_eq_zero_iff.mp hnil
      rfl
    · rfl

theorem Explored.getLength_keeps (h : Explored input im) : Explored input im.getLength.1 := by
  rw [h.getLength]
  exact ⟨h.contents, Or.inr ⟨rfl, rfl⟩, h.offset⟩

/-- The offset is the one the walk ends with, and so it is the next time. -/
theorem Explored.appDescriptorOffset (h : Explored input im) :
    im.appDescriptorOffset.2 = search input ∧ Explored input im.appDescriptorOffset.1 := by
  rw [FirmwareImage.appDescriptorOffset]
  split
  · have hlen := h.getLength
    have hkeeps := h.getLength_keeps
    rw [hlen] at hkeeps ⊢
    have hcontents : im.contents = input := h.contents
    simp only [hcontents]
    have hsearch : FirmwareImage.searchLoop input (paddedLength input) (paddedLength input) 0 =
        search input := rfl
    rw [hsearch]
    cases hfound : search input with
    | some o => exact ⟨rfl, rfl, Or.inr ⟨rfl, rfl⟩, Or.inr hfound.symm⟩
    | none =>
        have hnone : im.descriptorOffset = none := by
          rcases h.offset with hno | hyes
          · exact hno
          · rw [hyes, hfound]
        exact ⟨hnone, rfl, Or.inr ⟨rfl, rfl⟩, Or.inl hnone⟩
  · rename_i hpos
    rcases h.offset with hno | hyes
    · rw [hno] at hpos
      exact absurd rfl hpos
    · exact ⟨hyes, h⟩

/-- A search that fails leaves an object without a descriptor. -/
theorem Explored.readAttribute (h : Explored input im) (r : Read) :
    Explored input (readAttribute im r) := by
  have hsearch := h.appDescriptorOffset.2
  cases r with
  | length => exact h.getLength_keeps
  | appDescriptorOffset => exact hsearch
  | appDescriptor =>
      rw [Tool.readAttribute]
      split
      · rename_i im' d heq
        rw [FirmwareImage.appDescriptor] at heq
        split at heq
        · cases heq
          exact h
        split at heq
        · cases heq
        rename_i im₁ o hoff
        cases hd : AppDescriptor.new (slice im₁.contents o AppDescriptor.length) with
        | error e =>
            rw [hd] at heq
            cases heq
        | ok d' =>
            rw [hd] at heq
            cases heq
            rw [hoff] at hsearch
            exact ⟨hsearch.contents, hsearch.length, hsearch.offset⟩
      · exact hsearch
  | crc =>
      rw [Tool.readAttribute]
      split
      · rename_i im' crc heq
        rw [FirmwareImage.crc] at heq
        split at heq
        · cases heq
        rename_i im₁ o hoff
        cases heq
        rw [hoff] at hsearch
        exact hsearch
      · exact hsearch

theorem explored_reachable (h : (reads input).Reachable im) : Explored input im := by
  refine Machine.Reachable.invariant ?_ ?_ h
  · rintro im rfl
    exact ⟨rfl, Or.inl ⟨rfl, rfl⟩, Or.inl rfl⟩
  · rintro im r im' - hI rfl
    exact hI.readAttribute r

/-- Whatever was read before, the offset is that of the first descriptor,
unless this descriptor is the end of a file that needs no padding. -/
theorem descriptor_search (hfirst : FirstDescriptor input o)
    (him : (reads input).Reachable im) :
    im.appDescriptorOffset.2 = some o ↔ ¬(input.length % 8 = 0 ∧ o + 32 = input.length) := by
  have hin : o + 32 ≤ input.length := hfirst.1.1
  have hpad := padLength_spec input.length
  rw [(explored_reachable him).appDescriptorOffset.1, search_eq_some_iff,
    and_iff_right hfirst, paddedLength]
  omega

/-- In a file of 49 bytes the descriptor is found, also after the length was
read. -/
theorem descriptor_search_binary :
    (readAttribute { contents := binary 0 0 } .length).appDescriptorOffset.2 = some 8 := by
  have him : (reads (binary 0 0)).Reachable (readAttribute { contents := binary 0 0 } .length) :=
    (Machine.Reachable.init rfl).step rfl
  have hfound : search (binary 0 0) = some 8 := by decide +kernel
  exact (descriptor_search (search_eq_some_iff.mp hfound).1 him).mpr (by decide)

/-- A descriptor and nothing else. -/
def bare : List UInt8 := slice (binary 0 0) 8 32

/-- In a file that is a descriptor the tool does not find it. -/
theorem descriptor_search_bare :
    FirstDescriptor bare 0 ∧ (FirmwareImage.appDescriptorOffset { contents := bare }).2 = none := by
  refine ⟨⟨⟨by decide, ?_⟩, fun o' h => absurd h (Nat.not_lt_zero o')⟩, by decide +kernel⟩
  exact ⟨{
    signature := AppDescriptor.signatureBytes
    vcsCommit := 0xBADC0DE
    versionMajor := 1
    versionMinor := 2
    reserved := AppDescriptor.reservedBytes }, by decide +kernel⟩

end Tool

end UavcanAdapter
