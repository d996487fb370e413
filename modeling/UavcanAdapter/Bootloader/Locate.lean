/-
# `Bootloader.Locate` — the search for an application descriptor

`Bootloader::locateAppDescriptor` walks the storage in steps of eight bytes
until it meets a descriptor with plausible fields and a matching CRC.  The
model follows the source pass by pass; `probe` is the body of its loop, with
`break`, `continue` and `return` as its three outcomes.

Over a storage that holds a byte string (`Holds`) the search has a plain
meaning.  `covered` is the byte string the two read loops feed into the CRC
— short reads end a loop silently, so it stops at the end of the storage —
and `Accepts content max o` says that offset `o` passes every check.  The
search returns the descriptor at the first such offset (`locate_eq_some`),
or none where there is none (`locate_eq_none`).
-/
import UavcanAdapter.Bootloader.Crc64
import UavcanAdapter.Bootloader.Storage

namespace UavcanAdapter

open Base

/-! ## The source -/

/-- `sizeof(rom_buffer_)`. -/
def romBufferSize : Nat := 1024

/-- `constexpr auto Step`. -/
def stepBytes : Nat := 8

section Source

variable {σ : Type} (b : IAppStorageBackend σ) (s : σ)

/-- Either of the loops `for (i = …; i < stop;)` that feed the CRC.  Every
pass that does not leave the loop moves `i` on, so `stop - i` passes are
enough.  A read of at most `stop - i` bytes keeps `i` at or below `stop`. -/
def addChunks (stop : Nat) : Nat → Nat → CRC64WE → CRC64WE
  | 0, _, crc => crc
  | fuel + 1, i, crc =>
      if i < stop then
        match b.read s i (min romBufferSize (stop - i)) with
        | .ok (x :: xs) => addChunks stop fuel (i + (x :: xs).length) (crc.add (x :: xs))
        | _ => crc
      else crc

/-- The CRC the search computes for a descriptor at `offset` that declares
`imageSize` bytes: up to the CRC field, eight zeros, and the rest. -/
def imageCrc (offset imageSize : Nat) : UInt64 :=
  let crcOffset := wrap32 (offset + 8)
  let crc := addChunks b s crcOffset crcOffset 0 {}
  let crc := crc.add (List.replicate 8 0)
  let i := wrap32 (crcOffset + 8)
  (addChunks b s imageSize (imageSize - i) i crc).get

/-- How one pass of the search ends. -/
inductive Probe
  /-- `break` -/
  | stop
  /-- `continue` -/
  | skip
  /-- `return {desc, true}` -/
  | found (desc : AppDescriptor)
deriving DecidableEq, Repr

variable (maxApplicationImageSize : UInt32)

/-- The body of the search loop. -/
def probe (offset : Nat) : Probe :=
  match b.read s offset stepBytes with
  | .error _ => .stop
  | .ok signature =>
      if signature.length ≠ stepBytes then .stop
      else if signature ≠ AppDescriptor.getSignatureValue.toList then .skip
      else
        match b.read s offset AppDescriptor.size with
        | .error _ => .stop
        | .ok raw =>
            if raw.length ≠ AppDescriptor.size then .stop
            else
              let desc := AppDescriptor.ofBytes raw
              if ¬desc.isValid maxApplicationImageSize then .skip
              else if imageCrc b s offset desc.appInfo.imageSize.toNat ≠ desc.appInfo.imageCrc then
                .skip
              else .found desc

/-- The search from `offset` on. -/
def locateLoop : Nat → Nat → Call (Option AppDescriptor)
  | 0, _ => .error .hang
  | fuel + 1, offset =>
      match probe b s maxApplicationImageSize offset with
      | .stop => .ok none
      | .skip => locateLoop fuel (wrap32 (offset + stepBytes))
      | .found desc => .ok (some desc)

/-- `Bootloader::locateAppDescriptor`.  There are `2^29` offsets to visit; a
search that has passed them all starts over with the same outcome. -/
def locateAppDescriptor : Call (Option AppDescriptor) :=
  locateLoop b s maxApplicationImageSize (2 ^ 29) 0

end Source

/-! ## What the search means on a byte string -/

/-- The bytes the CRC is computed over. -/
def covered (content : List UInt8) (o imageSize : Nat) : List UInt8 :=
  slice content 0 (o + 8) ++ List.replicate 8 0 ++ slice content (o + 16) (imageSize - (o + 16))

/-- The 32 bytes at `o` as a descriptor. -/
def descAt (content : List UInt8) (o : Nat) : AppDescriptor :=
  AppDescriptor.ofBytes (slice content o 32)

/-- Offset `o` passes every check of the search. -/
def Accepts (content : List UInt8) (max : UInt32) (o : Nat) : Prop :=
  o % 8 = 0 ∧ o + 32 ≤ content.length ∧ (descAt content o).isValid max = true ∧
    crc64 (covered content o (descAt content o).appInfo.imageSize.toNat)
      = (descAt content o).appInfo.imageCrc

instance decAccepts (content : List UInt8) (max : UInt32) (o : Nat) :
    Decidable (Accepts content max o) :=
  inferInstanceAs (Decidable (_ ∧ _ ∧ _ ∧ _))

/-- The first offset that passes. -/
def FirstAccepted (content : List UInt8) (max : UInt32) (o : Nat) : Prop :=
  Accepts content max o ∧ ∀ o' < o, ¬Accepts content max o'

theorem FirstAccepted.unique {content : List UInt8} {max : UInt32} {o o' : Nat}
    (h : FirstAccepted content max o) (h' : FirstAccepted content max o') : o = o' := by
  rcases Nat.lt_trichotomy o o' with hlt | heq | hgt
  · exact absurd h.1 (h'.2 o hlt)
  · exact heq
  · exact absurd h'.1 (h.2 o' hgt)

theorem toBytes_descAt {content : List UInt8} {o : Nat} (h : o + 32 ≤ content.length) :
    (descAt content o).toBytes = slice content o 32 :=
  AppDescriptor.toBytes_ofBytes (by simp; omega)

theorem signature_descAt {content : List UInt8} {o : Nat} (h : o + 32 ≤ content.length) :
    (descAt content o).signature.toList = slice content o 8 := by
  have hsub : slice (slice content o 32) 0 8 = slice content o 8 := slice_slice (by omega)
  rw [← hsub, ← toBytes_descAt h, slice_zero]
  simp [AppDescriptor.toBytes]

/-! ## The loops over a storage that holds a byte string -/

section Spec

variable {σ : Type} {b : IAppStorageBackend σ} {s : σ} {content : List UInt8}

/-- A CRC loop feeds exactly the bytes from `i` up to `stop`, or up to the
end of the storage where that comes first. -/
theorem addChunks_eq (hb : b.Holds s romBufferSize content) {stop : Nat} :
    ∀ (fuel i : Nat) (crc : CRC64WE), stop - i ≤ fuel → i ≤ content.length →
      addChunks b s stop fuel i crc = crc.add (slice content i (stop - i))
  | 0, i, crc, hf, _ => by
      have h0 : stop - i = 0 := by omega
      simp [addChunks, h0, slice]
  | fuel + 1, i, crc, hf, hi => by
      by_cases hlt : i < stop
      swap
      · have h0 : stop - i = 0 := by omega
        simp [addChunks, hlt, h0, slice]
      have hread := hb i (min romBufferSize (stop - i)) (by omega) (Nat.min_le_left _ _)
      have hlen := length_slice content i (min romBufferSize (stop - i))
      simp only [addChunks, if_pos hlt, hread]
      cases hbs : slice content i (min romBufferSize (stop - i)) with
      | nil =>
          -- the read came back empty: `i` is the end of the storage
          have hend : content.length ≤ i := by
            rw [hbs] at hlen
            simp [romBufferSize] at hlen
            omega
          simp [slice_eq_nil hend]
      | cons x xs =>
          have hle : (x :: xs).length ≤ min romBufferSize (stop - i) := by rw [← hbs, hlen]; omega
          have hle' : i + (x :: xs).length ≤ content.length := by rw [← hbs, hlen]; omega
          have hpos : 0 < (x :: xs).length := by simp
          have hpiece : slice content i (x :: xs).length = x :: xs := by
            rw [← hbs, hlen, slice, slice, List.take_eq_take_iff]
            simp
          have hsplit : slice content i (stop - i) = (x :: xs) ++
              slice content (i + (x :: xs).length) (stop - (i + (x :: xs).length)) := by
            have h := slice_append_slice content i (x :: xs).length
              (stop - (i + (x :: xs).length))
            rw [hpiece] at h
            rw [h]
            congr 1
            omega
          simp only
          rw [addChunks_eq hb fuel _ _ (by omega) hle', hsplit, CRC64WE.add_append]

/-- The CRC of the search is the CRC of the covered bytes. -/
theorem imageCrc_eq (hb : b.Holds s romBufferSize content) (hn : content.length < 2 ^ 32)
    {o size : Nat} (ho : o + 16 ≤ content.length) :
    imageCrc b s o size = crc64 (covered content o size) := by
  have h8 : wrap32 (o + 8) = o + 8 := wrap32_of_lt (by omega)
  have h16 : wrap32 (o + 8 + 8) = o + 16 := wrap32_of_lt (by omega)
  simp only [imageCrc, h8, h16]
  rw [addChunks_eq hb _ 0 _ (by omega) (by omega), addChunks_eq hb _ (o + 16) _ (by omega) ho,
    ← CRC64WE.add_append, ← CRC64WE.add_append, ← List.append_assoc]
  rfl

variable {max : UInt32}

/-- One pass of the search, at an offset it can reach. -/
theorem probe_eq (hb : b.Holds s romBufferSize content) (hn : content.length < 2 ^ 32)
    {o : Nat} (h8 : o % 8 = 0) (ho : o ≤ content.length + 8) :
    probe b s max o =
      if content.length < o + 8 then .stop
      else if slice content o 8 ≠ AppDescriptor.getSignatureValue.toList then .skip
      else if content.length < o + 32 then .stop
      else if Accepts content max o then .found (descAt content o)
      else .skip := by
  have hsig := hb o 8 (by simp [romBufferSize]; omega) (by simp [romBufferSize])
  have hraw := hb o 32 (by simp [romBufferSize]; omega) (by simp [romBufferSize])
  have hdesc : AppDescriptor.ofBytes (slice content o 32) = descAt content o := rfl
  simp only [probe, stepBytes, AppDescriptor.size, hsig, hraw, length_slice, hdesc]
  by_cases h1 : content.length < o + 8
  · simp only [if_pos h1]
    rw [if_pos (by omega)]
  rw [if_neg h1, if_neg (by omega : ¬min 8 (content.length - o) ≠ 8)]
  by_cases h2 : slice content o 8 ≠ AppDescriptor.getSignatureValue.toList
  · simp only [if_pos h2]
  rw [if_neg h2, if_neg h2]
  by_cases h3 : content.length < o + 32
  · rw [if_pos h3, if_pos (by omega)]
  rw [if_neg h3, if_neg (by omega), imageCrc_eq hb hn (by omega)]
  by_cases hv : (descAt content o).isValid max = true
  swap
  · have hacc : ¬Accepts content max o := fun h => hv h.2.2.1
    rw [if_neg hacc, if_pos (by simpa using hv)]
  rw [if_neg (by simpa using hv)]
  by_cases hc : crc64 (covered content o (descAt content o).appInfo.imageSize.toNat)
      = (descAt content o).appInfo.imageCrc
  · have hacc : Accepts content max o := ⟨h8, by omega, hv, hc⟩
    rw [if_pos hacc, if_neg (not_not.mpr hc)]
  · have hacc : ¬Accepts content max o := fun h => hc h.2.2.2
    rw [if_neg hacc, if_pos hc]

/-- What the search from `o` on returns when nothing before `o` passes. -/
theorem locateLoop_spec (hb : b.Holds s romBufferSize content) (hn : content.length < 2 ^ 32) :
    ∀ (fuel o : Nat), o % 8 = 0 → o ≤ content.length + 8 → content.length + 8 < o + 8 * fuel →
      (∀ o' < o, ¬Accepts content max o') →
      (locateLoop b s max fuel o = .ok none ∧ ∀ o', ¬Accepts content max o') ∨
      ∃ o', locateLoop b s max fuel o = .ok (some (descAt content o')) ∧
        FirstAccepted content max o'
  | 0, o, _, ho, hf, _ => by omega
  | fuel + 1, o, h8, ho, hf, hbefore => by
      rw [locateLoop, probe_eq hb hn h8 ho]
      -- nothing fits behind the end of the storage
      have hstop : content.length < o + 32 →
          (∀ o', ¬Accepts content max o') := by
        intro hend o' hacc
        rcases Nat.lt_or_ge o' o with hlt | hge
        · exact hbefore o' hlt hacc
        · have := hacc.2.1
          omega
      have hnext : ¬content.length < o + 8 → ¬Accepts content max o →
          (locateLoop b s max fuel (wrap32 (o + stepBytes)) = .ok none ∧
            ∀ o', ¬Accepts content max o') ∨
          ∃ o', locateLoop b s max fuel (wrap32 (o + stepBytes)) = .ok (some (descAt content o')) ∧
            FirstAccepted content max o' := by
        intro hin hskip
        have hw : wrap32 (o + stepBytes) = o + 8 := wrap32_of_lt (by simp [stepBytes]; omega)
        rw [hw]
        refine locateLoop_spec hb hn fuel (o + 8) (by omega) (by omega) (by omega) ?_
        intro o' ho' hacc
        rcases Nat.lt_or_ge o' o with hlt | hge
        · exact hbefore o' hlt hacc
        · have h8' := hacc.1
          have : o' = o := by omega
          exact hskip (this ▸ hacc)
      by_cases h1 : content.length < o + 8
      · simp only [if_pos h1]
        exact Or.inl ⟨trivial, hstop (by omega)⟩
      by_cases h2 : slice content o 8 ≠ AppDescriptor.getSignatureValue.toList
      · simp only [if_neg h1, if_pos h2]
        refine hnext h1 fun hacc => h2 ?_
        rw [← signature_descAt hacc.2.1, (AppDescriptor.isValid_iff.mp hacc.2.2.1).1]
      by_cases h3 : content.length < o + 32
      · simp only [if_neg h1, if_neg h2, if_pos h3]
        exact Or.inl ⟨trivial, hstop h3⟩
      by_cases h4 : Accepts content max o
      · simp only [if_neg h1, if_neg h2, if_neg h3, if_pos h4]
        exact Or.inr ⟨o, rfl, h4, hbefore⟩
      · simp only [if_neg h1, if_neg h2, if_neg h3, if_neg h4]
        exact hnext h1 h4

variable (max)

/-- The search returns: the descriptor at the first offset that passes, or
none where no offset does. -/
theorem locate_cases (hb : b.Holds s romBufferSize content) (hn : content.length + 8 < 2 ^ 32) :
    (locateAppDescriptor b s max = .ok none ∧ ∀ o, ¬Accepts content max o) ∨
    ∃ o, locateAppDescriptor b s max = .ok (some (descAt content o)) ∧
      FirstAccepted content max o :=
  locateLoop_spec hb (by omega) (2 ^ 29) 0 rfl (by omega) (by omega)
    (fun o' h => absurd h (Nat.not_lt_zero o'))

theorem locate_eq_some (hb : b.Holds s romBufferSize content) (hn : content.length + 8 < 2 ^ 32)
    {d : AppDescriptor} :
    locateAppDescriptor b s max = .ok (some d) ↔
      ∃ o, FirstAccepted content max o ∧ d = descAt content o := by
  rcases locate_cases max hb hn with ⟨h, hno⟩ | ⟨o, h, hfirst⟩
  · rw [h]
    exact ⟨fun h => (by cases h), fun ⟨o, hf, _⟩ => absurd hf.1 (hno o)⟩
  · rw [h]
    constructor
    · intro heq
      cases heq
      exact ⟨o, hfirst, rfl⟩
    · rintro ⟨o', hf, rfl⟩
      rw [hf.unique hfirst]

theorem locate_eq_none (hb : b.Holds s romBufferSize content) (hn : content.length + 8 < 2 ^ 32) :
    locateAppDescriptor b s max = .ok none ↔ ∀ o, ¬Accepts content max o := by
  rcases locate_cases max hb hn with ⟨h, hno⟩ | ⟨o, h, hfirst⟩
  · exact ⟨fun _ => hno, fun _ => h⟩
  · rw [h]
    exact ⟨fun h => (by cases h), fun hno => absurd hfirst.1 (hno o)⟩

end Spec

/-! ## The smallest image -/

/-- An image that is nothing but its descriptor. -/
def minimalImage : List UInt8 :=
  AppDescriptor.toBytes
    { signature := AppDescriptor.getSignatureValue
      appInfo :=
        { imageCrc := 4119698442623985176
          imageSize := 32
          vcsCommit := 7
          majorVersion := 1
          minorVersion := 2 }
      reserved := Vector.replicate 6 0xFF }

example : Accepts minimalImage 1024 0 := by decide +kernel

end UavcanAdapter
