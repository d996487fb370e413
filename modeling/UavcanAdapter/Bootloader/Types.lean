/-
# `Bootloader.Types` — states, error codes and the application descriptor

The vocabulary of `bootloader.hpp` and `util.hpp`.  `AppDescriptor` is a
packed structure that is read from the storage by copying 32 bytes over it,
so its object representation is part of the model: `toBytes` lists it,
`ofBytes` is the copy, and on 32 bytes the two undo each other.
-/
import UavcanAdapter.Base.Bytes
import UavcanAdapter.Os.SystemTime

namespace UavcanAdapter

open Base

/-! ## Integers -/

/-- A value of `std::size_t` on the 32-bit target. -/
def wrap32 (n : Nat) : Nat := n % 2 ^ 32

theorem wrap32_of_lt {n : Nat} (h : n < 2 ^ 32) : wrap32 n = n := Nat.mod_eq_of_lt h

/-- The conversion of a `std::size_t` to `int`. -/
def toInt (n : Nat) : Int := Int.bmod n (2 ^ 32)

theorem toInt_of_lt {n : Nat} (h : n < 2 ^ 31) : toInt n = n := by
  exact Int.bmod_eq_of_le (by norm_num) (by norm_num; exact h)

/-! ## Error codes -/

def errOK : Int := 0
def errInvalidState : Int := 10001
def errAppImageTooLarge : Int := 10002
def errAppStorageWriteFailure : Int := 10003

/-! ## Bootloader states -/

/-- `enum class State`. -/
inductive State
  | noAppToBoot
  | bootDelay
  | bootCancelled
  | appUpgradeInProgress
  | readyToBoot
deriving DecidableEq, Repr

/-- The states in which an application stands ready to be booted. -/
def State.hasApp : State → Bool
  | .bootDelay | .bootCancelled | .readyToBoot => true
  | .noAppToBoot | .appUpgradeInProgress => false

/-! ## The application descriptor -/

/-- `struct AppInfo`. -/
structure AppInfo where
  imageCrc : UInt64 := 0
  imageSize : UInt32 := 0
  vcsCommit : UInt32 := 0
  majorVersion : UInt8 := 0
  minorVersion : UInt8 := 0
deriving DecidableEq, Repr

/-- `struct AppDescriptor`, 32 bytes without padding. -/
structure AppDescriptor where
  signature : Vector UInt8 8
  appInfo : AppInfo
  reserved : Vector UInt8 6
deriving DecidableEq, Repr

namespace AppDescriptor

def imagePaddingBytes : Nat := 8

/-- `sizeof(AppDescriptor)`. -/
def size : Nat := 32

/-- `'A','P','D','e','s','c','0','0'`. -/
def getSignatureValue : Vector UInt8 8 :=
  #v[0x41, 0x50, 0x44, 0x65, 0x73, 0x63, 0x30, 0x30]

/-- `AppDescriptor::isValid`. -/
def isValid (d : AppDescriptor) (maxApplicationImageSize : UInt32) : Bool :=
  d.signature == getSignatureValue &&
  decide (d.appInfo.imageSize > 0) &&
  decide (d.appInfo.imageSize ≤ maxApplicationImageSize) &&
  d.appInfo.imageSize.toNat % imagePaddingBytes == 0

/-- The object representation on the little-endian target. -/
def toBytes (d : AppDescriptor) : List UInt8 :=
  d.signature.toList ++ leBytes 8 d.appInfo.imageCrc.toNat ++
    leBytes 4 d.appInfo.imageSize.toNat ++ leBytes 4 d.appInfo.vcsCommit.toNat ++
    [d.appInfo.majorVersion, d.appInfo.minorVersion] ++ d.reserved.toList

/-- The structure after `bs` was copied over it. -/
def ofBytes (bs : List UInt8) : AppDescriptor where
  signature := Vector.ofFn fun i => bs.getD i 0
  appInfo :=
    { imageCrc := UInt64.ofNat (leNat (slice bs 8 8))
      imageSize := UInt32.ofNat (leNat (slice bs 16 4))
      vcsCommit := UInt32.ofNat (leNat (slice bs 20 4))
      majorVersion := bs.getD 24 0
      minorVersion := bs.getD 25 0 }
  reserved := Vector.ofFn fun i => bs.getD (26 + i) 0

theorem isValid_iff {d : AppDescriptor} {max : UInt32} :
    d.isValid max = true ↔ d.signature = getSignatureValue ∧ 0 < d.appInfo.imageSize.toNat ∧
      d.appInfo.imageSize.toNat ≤ max.toNat ∧ d.appInfo.imageSize.toNat % 8 = 0 := by
  simp [isValid, imagePaddingBytes, UInt32.lt_iff_toNat_lt, UInt32.le_iff_toNat_le, and_assoc]

@[simp] theorem length_toBytes (d : AppDescriptor) : d.toBytes.length = 32 := by
  simp [toBytes]

/-- Reading `n` consecutive cells is cutting out a piece. -/
theorem toList_ofFn_getD {bs : List UInt8} {o n : Nat} (h : o + n ≤ bs.length) :
    (Vector.ofFn fun i : Fin n => bs.getD (o + i) 0).toList = slice bs o n := by
  apply List.ext_getElem
  · simp; omega
  · intro i h1 h2
    have hi : i < n := by simpa using h1
    simp [slice, List.getD_eq_getElem?_getD, List.getElem?_eq_getElem (by omega : o + i < bs.length)]

theorem leBytes_ofNat64 {bs : List UInt8} (h : bs.length = 8) :
    leBytes 8 (UInt64.ofNat (leNat bs)).toNat = bs := by
  have hlt : leNat bs < 2 ^ 64 := by simpa [h] using leNat_lt bs
  rw [UInt64.toNat_ofNat_of_lt' hlt]
  simpa [h] using leBytes_leNat bs

theorem leBytes_ofNat32 {bs : List UInt8} (h : bs.length = 4) :
    leBytes 4 (UInt32.ofNat (leNat bs)).toNat = bs := by
  have hlt : leNat bs < 2 ^ 32 := by simpa [h] using leNat_lt bs
  rw [UInt32.toNat_ofNat_of_lt' hlt]
  simpa [h] using leBytes_leNat bs

theorem pair_eq_slice {bs : List UInt8} {o : Nat} (h : o + 2 ≤ bs.length) :
    [bs.getD o 0, bs.getD (o + 1) 0] = slice bs o 2 := by
  have h0 : o < bs.length := by omega
  have h1 : o + 1 < bs.length := by omega
  have hd0 : bs.getD o 0 = bs[o] := by simp [List.getD_eq_getElem?_getD, h0]
  have hd1 : bs.getD (o + 1) 0 = bs[o + 1] := by simp [List.getD_eq_getElem?_getD, h1]
  rw [slice, List.drop_eq_getElem_cons h0, List.drop_eq_getElem_cons h1, hd0, hd1]
  rfl

/-- The copy keeps all 32 bytes. -/
theorem toBytes_ofBytes {bs : List UInt8} (h : bs.length = 32) : (ofBytes bs).toBytes = bs := by
  have hsig : (Vector.ofFn fun i : Fin 8 => bs.getD i 0).toList = slice bs 0 8 := by
    have hpiece : (Vector.ofFn fun i : Fin 8 => bs.getD (0 + i) 0).toList = slice bs 0 8 :=
      toList_ofFn_getD (by omega)
    simpa using hpiece
  have hres : (Vector.ofFn fun i : Fin 6 => bs.getD (26 + i) 0).toList = slice bs 26 6 :=
    toList_ofFn_getD (by omega)
  have hver : [bs.getD 24 0, bs.getD 25 0] = slice bs 24 2 := pair_eq_slice (by omega)
  have hall : slice bs 0 32 = bs := by simp [slice, h]
  calc (ofBytes bs).toBytes
      = slice bs 0 8 ++ slice bs 8 8 ++ slice bs 16 4 ++ slice bs 20 4 ++ slice bs 24 2
          ++ slice bs 26 6 := by
        rw [toBytes, ofBytes]
        rw [hsig, hres, hver, leBytes_ofNat64 (by simp [h]), leBytes_ofNat32 (by simp [h]),
          leBytes_ofNat32 (by simp [h])]
    _ = slice bs 0 32 := by
        rw [slice_append_slice bs 0 8 8, slice_append_slice bs 0 16 4,
          slice_append_slice bs 0 20 4, slice_append_slice bs 0 24 2, slice_append_slice bs 0 26 6]
    _ = bs := hall

theorem toBytes_injective {d e : AppDescriptor} (h : d.toBytes = e.toBytes) : d = e := by
  obtain ⟨s, ⟨c, z, v, a, b⟩, r⟩ := d
  obtain ⟨s', ⟨c', z', v', a', b'⟩, r'⟩ := e
  unfold toBytes at h
  obtain ⟨h, hr⟩ := List.append_inj' h (by simp only [Vector.length_toList])
  obtain ⟨h, hab⟩ := List.append_inj' h rfl
  obtain ⟨h, hv⟩ := List.append_inj' h (by simp only [length_leBytes])
  obtain ⟨h, hz⟩ := List.append_inj' h (by simp only [length_leBytes])
  obtain ⟨hs, hc⟩ := List.append_inj' h (by simp only [length_leBytes])
  have hc' : c.toNat = c'.toNat := by
    have := congrArg leNat hc
    rwa [leNat_leBytes_of_lt (by simpa using c.toNat_lt),
      leNat_leBytes_of_lt (by simpa using c'.toNat_lt)] at this
  have hz' : z.toNat = z'.toNat := by
    have := congrArg leNat hz
    rwa [leNat_leBytes_of_lt (by simpa using z.toNat_lt),
      leNat_leBytes_of_lt (by simpa using z'.toNat_lt)] at this
  have hv' : v.toNat = v'.toNat := by
    have := congrArg leNat hv
    rwa [leNat_leBytes_of_lt (by simpa using v.toNat_lt),
      leNat_leBytes_of_lt (by simpa using v'.toNat_lt)] at this
  simp only [List.cons.injEq, and_true] at hab
  obtain rfl := Vector.toList_inj.mp hs
  obtain rfl := Vector.toList_inj.mp hr
  obtain rfl := UInt64.toNat_inj.mp hc'
  obtain rfl := UInt32.toNat_inj.mp hz'
  obtain rfl := UInt32.toNat_inj.mp hv'
  obtain ⟨rfl, rfl⟩ := hab
  rfl

theorem ofBytes_toBytes (d : AppDescriptor) : ofBytes d.toBytes = d :=
  toBytes_injective (toBytes_ofBytes (length_toBytes d))

end AppDescriptor

end UavcanAdapter
