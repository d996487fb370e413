/-
# `Config.Store` — the parameter pool and its storage

The functions of `config.cpp` over any storage.  The first `_num_params`
slots of `_descr_pool` and `_value_pool` are the list `pool`; the slots
behind them are never touched, so they are still the null pointers and the
zeros the program starts with, as `configRegisterParam_` asserts.

What `init` makes of a storage it can read depends on the content alone:
`restore` is the pool it ends with, and `init_of_holds` connects the two.
-/
import UavcanAdapter.Base.Prog
import UavcanAdapter.Config.Param

namespace UavcanAdapter

open Base

/-- `class IStorageBackend`.  A read is given the buffer as it is and
returns it as it is afterwards. -/
structure IStorageBackend (σ : Type) where
  read : Nat → List UInt8 → Prog σ (Int × List UInt8)
  write : Nat → List UInt8 → Prog σ Int
  erase : Prog σ Int

/-- A slot of `_descr_pool` and the slot of `_value_pool` beside it. -/
structure Entry where
  descr : ConfigParam
  value : UInt32
deriving DecidableEq

/-- The static variables of `config.cpp`. -/
structure Config where
  pool : List Entry := []
  layoutHash : UInt32 := 0
  frozen : Bool := false
  modificationCnt : UInt32 := 0
deriving DecidableEq

def configParamsMax : Nat := 40

def offsetLayoutHash : Nat := 0
def offsetCrc : Nat := 4
def offsetValues : Nat := 8

def initCodeRestored : Int := 1
def initCodeLayoutMismatch : Int := 2
def initCodeCrcMismatch : Int := 3

def enoent : Int := 2
def einval : Int := 22

namespace Config

def descrs (c : Config) : List ConfigParam := c.pool.map Entry.descr
def values (c : Config) : List UInt32 := c.pool.map Entry.value
def names (c : Config) : List CString := c.pool.map fun e => e.descr.name

/-- The pool with other values. -/
def withValues (c : Config) (vs : List UInt32) : Config :=
  { c with pool := List.zipWith (fun e v => { e with value := v }) c.pool vs }

def indexByName (c : Config) (name : CString) : Option (Fin c.pool.length) :=
  c.pool.findFinIdx? fun e => e.descr.name = name

def reinitializeDefaults (c : Config) : Config :=
  { c with pool := c.pool.map fun e => { e with value := e.descr.default_ } }

/-- The loop of `init` over values that are not valid. -/
def revalidate (c : Config) : Config :=
  { c with pool := c.pool.map fun e =>
      if isValid e.descr e.value then e else { e with value := e.descr.default_ } }

def configRegisterParam (c : Config) (param : ConfigParam) : Call Config := do
  Call.assert (c.frozen = false)
  Call.assert (c.pool.length < configParamsMax)
  Call.assert (isValid param param.default_ = true)
  Call.assert (c.indexByName param.name = none)
  return { c with
    pool := c.pool ++ [{ descr := param, value := param.default_ }]
    layoutHash := param.name.chars.foldl crc32Step c.layoutHash }

def configSet (c : Config) (name : CString) (value : UInt32) : Call (Config × Int) := do
  Call.assert (c.frozen = true)
  match c.indexByName name with
  | none => return (c, -enoent)
  | some index =>
      if isValid c.pool[index].descr value = false then return (c, -einval)
      else
        return ({ c with
          modificationCnt := c.modificationCnt + 1
          pool := c.pool.set index { c.pool[index] with value := value } }, 0)

def configGet (c : Config) (name : CString) : Call UInt32 := do
  Call.assert (c.frozen = true)
  match c.indexByName name with
  | none => .error .assertion
  | some index =>
      let val := c.pool[index].value
      Call.assert ((Float32.ofBits val).isFinite = true)
      return val

/-! ## Over a storage -/

section Storage

variable {σ : Type} (b : IStorageBackend σ)

/-- The label `flash_error` of `configSave`. -/
def saveError (flashRes : Int) : Prog σ Int := do
  Prog.assert (flashRes ≠ 0)
  return flashRes

def configSave (c : Config) : Prog σ Int := do
  Prog.assert (c.frozen = true)
  let flashRes ← b.erase
  if flashRes ≠ 0 then saveError flashRes
  else do
    let flashRes ← b.write offsetLayoutHash (wordBytes c.layoutHash)
    if flashRes ≠ 0 then saveError flashRes
    else do
      let trueCrc := crc32 (wordsBytes c.values)
      let flashRes ← b.write offsetCrc (wordBytes trueCrc)
      if flashRes ≠ 0 then saveError flashRes
      else do
        let flashRes ← b.write offsetValues (wordsBytes c.values)
        if flashRes ≠ 0 then saveError flashRes
        else return 0

def configErase (c : Config) : Prog σ (Config × Int) := do
  Prog.assert (c.frozen = true)
  let res ← b.erase
  if res ≥ 0 then
    return ({ c.reinitializeDefaults with modificationCnt := c.modificationCnt + 1 }, res)
  else return (c, res)

/-- The label `flash_error` of `init`. -/
def initError (c : Config) (flashRes : Int) : Prog σ (Config × Int) := do
  Prog.assert (flashRes ≠ 0)
  return (c.reinitializeDefaults, flashRes)

/-- `init` from the point on where the values were read. -/
def initCheckCrc (c : Config) : Prog σ (Config × Int) := do
  let trueCrc := crc32 (wordsBytes c.values)
  let (flashRes, storedCrc) ← b.read offsetCrc (wordBytes 0)
  if flashRes ≠ 0 then initError c flashRes
  else if trueCrc = wordAt storedCrc 0 then return (c.revalidate, initCodeRestored)
  else return (c.reinitializeDefaults, initCodeCrcMismatch)

/-- `init` from the point on where the module is frozen. -/
def initFrozen (c : Config) : Prog σ (Config × Int) := do
  let (flashRes, storedLayoutHash) ← b.read offsetLayoutHash (wordBytes 0xdeadbeef)
  if flashRes ≠ 0 then initError c flashRes
  else if wordAt storedLayoutHash 0 = c.layoutHash then do
    let (flashRes, data) ← b.read offsetValues (wordsBytes c.values)
    -- the values are in the pool already when the result is looked at
    let c := c.withValues (words c.pool.length data)
    if flashRes ≠ 0 then initError c flashRes else initCheckCrc b c
  else return (c.reinitializeDefaults, initCodeLayoutMismatch)

/-- `os::config::init`. -/
def init (storage : Option (IStorageBackend σ)) (c : Config) : Prog σ (Config × Int) := do
  Prog.assert (c.pool.length ≤ configParamsMax)
  Prog.assert (c.frozen = false)
  match storage with
  | none => return (c, -einval)
  | some b => initFrozen b { c with frozen := true }

/-- What a boot of the program does: the constructors register the
parameters, then `init` is called. -/
def boot (params : List ConfigParam) : Prog σ (Config × Int) := do
  let c ← Prog.lift (params.foldlM Config.configRegisterParam {})
  init (some b) c

end Storage

/-! ## The pool -/

section Pool

variable {c : Config} {vs : List UInt32}

@[simp] theorem length_descrs : c.descrs.length = c.pool.length := List.length_map _

@[simp] theorem length_values : c.values.length = c.pool.length := List.length_map _

theorem pool_withValues (hlen : vs.length = c.pool.length) :
    (c.withValues vs).descrs = c.descrs ∧ (c.withValues vs).values = vs := by
  simp only [withValues, descrs, values]
  generalize c.pool = pool at hlen
  induction pool generalizing vs with
  | nil => simpa using hlen
  | cons e pool ih =>
      cases vs with
      | nil => simp at hlen
      | cons v vs =>
          obtain ⟨hd, hv⟩ := @ih vs (by simpa using hlen)
          simp only [List.zipWith_cons_cons, List.map_cons, hd, hv]
          exact ⟨trivial, trivial⟩

@[simp] theorem descrs_reinitializeDefaults : c.reinitializeDefaults.descrs = c.descrs := by
  simp [reinitializeDefaults, descrs]

@[simp] theorem values_reinitializeDefaults :
    c.reinitializeDefaults.values = c.descrs.map ConfigParam.default_ := by
  simp [reinitializeDefaults, descrs, values]

@[simp] theorem descrs_revalidate : c.revalidate.descrs = c.descrs := by
  simp only [revalidate, descrs, List.map_map]
  apply List.map_congr_left
  intro e _
  simp only [Function.comp]
  split <;> rfl

/-- Descriptors and values make the pool. -/
theorem pool_ext {c c' : Config} (hd : c.descrs = c'.descrs) (hv : c.values = c'.values) :
    c.pool = c'.pool := by
  simp only [descrs, values] at hd hv
  generalize c.pool = pool, c'.pool = pool' at hd hv
  induction pool generalizing pool' with
  | nil => simpa using hd.symm
  | cons e pool ih =>
      cases pool' with
      | nil => simp at hd
      | cons e' pool' =>
          simp only [List.map_cons, List.cons.injEq] at hd hv
          obtain ⟨descr, value⟩ := e
          obtain ⟨descr', value'⟩ := e'
          obtain ⟨rfl, hd⟩ := hd
          obtain ⟨rfl, hv⟩ := hv
          rw [ih pool' hd hv]

/-- The defaults of a pool do not depend on its values. -/
theorem reinitializeDefaults_withValues (hlen : vs.length = c.pool.length) :
    (c.withValues vs).reinitializeDefaults = c.reinitializeDefaults := by
  have hpool : (c.withValues vs).reinitializeDefaults.pool = c.reinitializeDefaults.pool := by
    apply pool_ext
    · simp [(pool_withValues hlen).1]
    · simp [(pool_withValues hlen).1]
  simp only [reinitializeDefaults, withValues] at hpool ⊢
  rw [hpool]

end Pool

/-! ## What `init` makes of a content -/

/-- The state `init` ends in, and its result, over a storage that can be
read. -/
def restore (c : Config) (content : List UInt8) : Config × Int :=
  if wordAt content offsetLayoutHash = c.layoutHash then
    let vs := words c.pool.length (slice content offsetValues (4 * c.pool.length))
    if crc32 (wordsBytes vs) = wordAt content offsetCrc then
      ((c.withValues vs).revalidate, initCodeRestored)
    else (c.reinitializeDefaults, initCodeCrcMismatch)
  else (c.reinitializeDefaults, initCodeLayoutMismatch)

end Config

/-- Reading sees the storage as the byte string `content`. -/
def IStorageBackend.Holds {σ : Type} (b : IStorageBackend σ) (s : σ) (content : List UInt8) :
    Prop :=
  ∀ offset data, offset + data.length ≤ content.length →
    b.read offset data s = (s, .ok (0, slice content offset data.length))

namespace Config

variable {σ : Type} {b : IStorageBackend σ} {s : σ} {content : List UInt8} {c : Config}

theorem wordAt_slice (bs : List UInt8) (o : Nat) : wordAt (slice bs o 4) 0 = wordAt bs o := by
  rw [wordAt, slice_slice (by omega), Nat.add_zero, wordAt]

theorem initFrozen_of_holds (h : b.Holds s content)
    (hfits : offsetValues + 4 * c.pool.length ≤ content.length) :
    initFrozen b c s = (s, .ok (restore c content)) := by
  have hhash := h offsetLayoutHash (wordBytes 0xdeadbeef)
    (by rw [length_wordBytes]; simp only [offsetLayoutHash, offsetValues] at hfits ⊢; omega)
  have hcrc := h offsetCrc (wordBytes 0)
    (by rw [length_wordBytes]; simp only [offsetCrc, offsetValues] at hfits ⊢; omega)
  have hvalues := h offsetValues (wordsBytes c.values) (by simpa using hfits)
  have hlen := length_words c.pool.length (slice content offsetValues (4 * c.pool.length))
  rw [length_wordBytes] at hhash hcrc
  rw [length_wordsBytes, length_values] at hvalues
  rw [initFrozen, restore, Prog.bind_of_ok hhash]
  simp only [ne_eq, not_true_eq_false, if_false, wordAt_slice]
  split
  · rw [Prog.bind_of_ok hvalues]
    simp only [not_true_eq_false, if_false]
    rw [initCheckCrc, Prog.bind_of_ok hcrc]
    simp only [ne_eq, not_true_eq_false, if_false, wordAt_slice, (pool_withValues hlen).2]
    split
    · rfl
    · rw [reinitializeDefaults_withValues hlen]
      rfl
  · rfl

/-- Over a storage that can be read, `init` restores its content. -/
theorem init_of_holds (h : b.Holds s content) (hfrozen : c.frozen = false)
    (hmax : c.pool.length ≤ configParamsMax)
    (hfits : offsetValues + 4 * c.pool.length ≤ content.length) :
    init (some b) c s = (s, .ok (restore { c with frozen := true } content)) := by
  rw [init, Prog.assert_bind hmax, Prog.assert_bind hfrozen]
  exact initFrozen_of_holds h hfits

end Config

end UavcanAdapter
