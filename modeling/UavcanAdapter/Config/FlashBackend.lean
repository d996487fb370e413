/-
# `Config.FlashBackend` — the pool in the flash

`class ConfigStorageBackend`, and what its area holds after `configSave` and
`configErase` report success: the image with blanks behind it, and nothing
but blanks.  `restore` finds in the first what was saved and in the second
the defaults, so memory and storage agree (`memory_and_storage_agree`).
-/
import UavcanAdapter.Config.Restore
import UavcanAdapter.Flash.PowerLoss

namespace UavcanAdapter

open Base

/-- `class ConfigStorageBackend`, with what its constructor asserts.  The
area lies in the address space. -/
structure ConfigStorageBackend where
  address : Nat
  size : Nat
  address_mod : address % 256 = 0
  size_mod : size % 256 = 0
  address_pos : 0 < address
  size_pos : 0 < size
  end_lt : address + size < 2 ^ 32

def eio : Int := 5

namespace ConfigStorageBackend

/-- The area of `hardware.cpp`: the last 1024 bytes of 256 KiB. -/
def hardware : ConfigStorageBackend where
  address := 0x08000000 + 256 * 1024 - 1024
  size := 1024
  address_mod := by decide
  size_mod := by decide
  address_pos := by decide
  size_pos := by decide
  end_lt := by decide

variable (area : ConfigStorageBackend) (hw : Fpec)

def read (offset : Nat) (data : List UInt8) : Prog Flash (Int × List UInt8) := fun f =>
  if wrap32 (offset + data.length) > area.size then (f, .error .assertion)
  else (f, .ok (0, (List.range data.length).map fun i => f.mem (area.address + offset + i)))

def write (offset : Nat) (data : List UInt8) : Prog Flash Int := fun f =>
  if wrap32 (offset + data.length) > area.size then (f, .error .assertion)
  else
    match FlashWriter.write hw (area.address + offset) { bytes := data } data.length f with
    | (f, .ok ok) => (f, .ok (if ok then 0 else -eio))
    | (f, .error e) => (f, .error e)

def erase : Prog Flash Int := fun f =>
  match FlashWriter.erase hw area.address area.size f with
  | (f, .ok ok) => (f, .ok (if ok then 0 else -eio))
  | (f, .error e) => (f, .error e)

def storage : IStorageBackend Flash where
  read := area.read
  write := area.write hw
  erase := area.erase hw

/-- The bytes of the area. -/
def content (f : Flash) : List UInt8 := (List.range area.size).map fun i => f.mem (area.address + i)

variable {area hw} {f f' : Flash} {bs : List UInt8}

@[simp] theorem length_content : (area.content f).length = area.size := by simp [content]

/-- There is room for the header and 40 values. -/
theorem le_size : 256 ≤ area.size := by
  have hmod := area.size_mod
  have hpos := area.size_pos
  omega

theorem holds_area : (area.storage hw).Holds f (area.content f) := by
  intro offset data h
  have hend := area.end_lt
  rw [length_content] at h
  have hslice : slice (area.content f) offset data.length
      = (List.range data.length).map fun i => f.mem (area.address + offset + i) := by
    apply List.ext_getElem
    · simp
      omega
    · intro i h1 h2
      simp [slice, content, Nat.add_assoc]
  change area.read offset data f = _
  rw [read, wrap32_of_lt (by omega), if_neg (by omega), hslice]

theorem content_of_filled (h : f.Filled area.address area.size bs) (hlen : bs.length ≤ area.size) :
    area.content f = bs ++ List.replicate (area.size - bs.length) 0xFF := by
  apply List.ext_getElem
  · simp
    omega
  · intro i h1 h2
    have hi : i < area.size := by simpa using h1
    have hmem : (area.content f)[i] = bs.getD i 0xFF := by
      simp only [content, List.getElem_map, List.getElem_range]
      exact h i hi
    rw [hmem, List.getD_eq_getElem?_getD]
    rcases Nat.lt_or_ge i bs.length with hlt | hge
    · rw [List.getElem?_eq_getElem hlt, List.getElem_append_left hlt]
      rfl
    · rw [List.getElem?_eq_none hge, List.getElem_append_right hge, List.getElem_replicate]
      rfl

/-- An erase that reports success has left the area blank: it looks. -/
theorem erase_filled (h : area.erase hw f = (f', .ok 0)) : f'.Filled area.address area.size [] := by
  rw [erase] at h
  rcases he : FlashWriter.erase hw area.address area.size f with ⟨g, e | ok⟩
  · rw [he] at h
    cases h
  rw [he] at h
  cases ok
  · cases h
  cases h
  rw [FlashWriter.erase] at he
  split at he
  · simp only [Prod.mk.injEq, Except.ok.injEq] at he
    obtain ⟨rfl, hall⟩ := he
    intro i hi
    have hff := List.all_eq_true.mp hall i (List.mem_range.mpr hi)
    simpa using hff
  · rename_i hne
    exact (hne f' he).elim

/-- A write that reports success has put the data behind what was there. -/
theorem write_filled (hl : hw.Lawful) {data : List UInt8} (heven : data.length % 2 = 0)
    (hfits : bs.length + data.length ≤ area.size) (hf : f.Filled area.address area.size bs)
    (h : area.write hw bs.length data f = (f', .ok 0)) :
    f'.Filled area.address area.size (bs ++ data) := by
  have hend := area.end_lt
  have hpos := area.address_pos
  rw [write, wrap32_of_lt (by omega), if_neg (by omega)] at h
  rcases hw' : FlashWriter.write hw (area.address + bs.length) { bytes := data } data.length f with
    ⟨g, e | ok⟩
  · rw [hw'] at h
    cases h
  rw [hw'] at h
  cases ok
  · cases h
  cases h
  obtain ⟨hdata, hrest⟩ := FlashWriter.write_mem hl (by omega) hw'
  apply hf.append
  · intro i v hv
    obtain ⟨hi, rfl⟩ := List.getElem?_eq_some_iff.mp hv
    rw [hdata i hi]
    exact Chunk.byteAt_of_lt (c := { bytes := data }) hi
  · intro x hx
    exact hrest x (by omega)

end ConfigStorageBackend

namespace Config

open ConfigStorageBackend

variable {area : ConfigStorageBackend} {hw : Fpec} {c c' : Config} {f f' : Flash} {res : Int}

/-- Where `configSave` reports success, the area holds the image. -/
theorem configSave_content (hl : hw.Lawful) (hmax : c.pool.length ≤ configParamsMax)
    (h : configSave (area.storage hw) c f = (f', .ok 0)) :
    area.content f' = image c ++ List.replicate (area.size - (image c).length) 0xFF := by
  have hsize := area.le_size
  have hlen : (image c).length ≤ area.size := by
    simp only [length_image, offsetValues, configParamsMax] at hmax ⊢
    omega
  obtain ⟨_, _, hfrozen, -⟩ := Prog.bind_eq_ok.mp h
  have htriple : Prog.Triple (fun _ => True) (configSave (area.storage hw) c)
      (fun r (f : Flash) => if r = 0 then f.Filled area.address area.size (image c) else True)
      (fun _ => True) := by
    refine configSave_triple (fun bs (f : Flash) => f.Filled area.address area.size bs)
      (Prog.assert_eq_ok.mp hfrozen).2 ?_ ?_
    · refine Prog.Triple.of_returned fun g r g' _ hok => ?_
      split
      · rename_i h0
        exact erase_filled (h0 ▸ hok)
      · trivial
    · intro pre data hprefix _ heven
      have hle := hprefix.length_le
      rw [List.length_append] at hle
      refine Prog.Triple.of_returned fun g r g' hg hok => ?_
      split
      · rename_i h0
        exact write_filled hl heven (by omega) hg (h0 ▸ hok)
      · trivial
  exact content_of_filled (htriple.returned trivial h) hlen

theorem configErase_content (h : configErase (area.storage hw) c f = (f', .ok (c', 0))) :
    area.content f' = List.replicate area.size 0xFF := by
  obtain ⟨-, herase, -⟩ := configErase_eq_ok h
  simpa using content_of_filled (erase_filled herase) (Nat.zero_le _)

/-- A boot on the flash. -/
theorem boot_flash (area : ConfigStorageBackend) (hw : Fpec) (f : Flash) {ds : List ConfigParam}
    (h : Registered ds) :
    boot (area.storage hw) ds f = (f, .ok ((restore (started ds) (area.content f)).1,
      (restore (started ds) (area.content f)).2)) := by
  refine boot_of_holds h holds_area ?_
  have hsize := area.le_size
  have hmax := h.atMost
  simp only [length_content, offsetValues, configParamsMax] at hmax ⊢
  omega

/-- After a successful `configSave` or `configErase`, in any reachable state,
a boot with the same parameters finds the pool that is in memory. -/
theorem memory_and_storage_agree (area : ConfigStorageBackend) (hw : Fpec) (hl : hw.Lawful)
    {s : Config × Flash} (h : (machine (area.storage hw)).Reachable s) :
    (∀ f', configSave (area.storage hw) s.1 s.2 = (f', .ok 0) →
      ∃ c' res, boot (area.storage hw) s.1.descrs f' = (f', .ok (c', res)) ∧
        c'.pool = s.1.pool) ∧
    ∀ c₁ f', configErase (area.storage hw) s.1 s.2 = (f', .ok (c₁, 0)) →
      c₁.descrs = s.1.descrs ∧ c₁.values = s.1.descrs.map ConfigParam.default_ ∧
      ∃ c' res, boot (area.storage hw) s.1.descrs f' = (f', .ok (c', res)) ∧
        c'.pool = c₁.pool := by
  have hwf := reachable_wellFormed h
  constructor
  · intro f' hsave
    refine ⟨_, _, boot_flash area hw f' hwf.registered, ?_⟩
    rw [configSave_content hl (by rw [← length_descrs]; exact hwf.registered.atMost) hsave]
    exact restore_image hwf
  · intro c₁ f' herase
    obtain ⟨-, -, ⟨-, rfl⟩ | ⟨hneg, -⟩⟩ := configErase_eq_ok herase
    swap
    · omega
    refine ⟨descrs_reinitializeDefaults, values_reinitializeDefaults, _, _,
      boot_flash area hw f' hwf.registered, ?_⟩
    rw [configErase_content herase, restore_of_torn]
    · simp [started, registered, reinitializeDefaults, descrs]
    · intro i hi
      have hsize := area.le_size
      have hmax := hwf.registered.atMost
      simp only [configParamsMax] at hmax
      have hblank : ∀ j < area.size, (List.replicate area.size (0xFF : UInt8))[j]? = some 0xFF := by
        intro j hj
        rw [List.getElem?_replicate, if_pos hj]
      exact torn_of_bytes (hblank _ (by simp only [offsetValues]; omega))
        (hblank _ (by simp only [offsetValues]; omega))

/-- The storage of the application on a flash with pages of 2 KiB. -/
def flashStorage : IStorageBackend Flash := hardware.storage (.stm32f1 2048)

def blankFlash : Flash where
  mem _ := 0xFF

/-- One parameter, started from a blank flash and set to 2. -/
def oneParamSet : List Request :=
  [.register (sampleParam [97] nul_notMem_a), .init, .set ⟨[97], nul_notMem_a⟩ 0x40000000]

/-- After this run the value 2 is saved. -/
theorem oneParamSet_saved : ∃ c f f', c.values = [0x40000000] ∧
    configSave flashStorage c f = (f', .ok 0) ∧ (machine flashStorage).Reachable (c, f) := by
  have hrun : Call.ReturnsWith (performAll flashStorage oneParamSet {} blankFlash).2
      (fun c => c.values = [0x40000000] ∧ Call.ReturnsWith (configSave flashStorage c
        (performAll flashStorage oneParamSet {} blankFlash).1).2 (fun r => r = 0)) := by
    decide +kernel
  obtain ⟨c, ⟨hvalues, r, hsave, rfl⟩, hr⟩ := exists_reachable hrun
  exact ⟨c, _, _, hvalues, Prod.ext rfl hsave, hr⟩

/-- The value 2 is saved and comes back. -/
theorem memory_and_storage_agree_one_param : ∃ c f f' c' res, c.values = [0x40000000] ∧
    configSave flashStorage c f = (f', .ok 0) ∧
    boot flashStorage c.descrs f' = (f', .ok (c', res)) ∧ c'.pool = c.pool := by
  obtain ⟨c, f, f', hvalues, hsave, hr⟩ := oneParamSet_saved
  obtain ⟨c', res, hboot, hpool⟩ := (memory_and_storage_agree hardware (.stm32f1 2048)
    (Fpec.lawful_stm32f1 2048) hr).1 _ hsave
  exact ⟨c, f, f', c', res, hvalues, hsave, hboot, hpool⟩

end Config

end UavcanAdapter
