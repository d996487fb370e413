/-
# `Board.Isolation` — application image and configuration in one flash

The device of the Makefile: 256 KiB of flash in pages of 2 KiB, the
application from 32 KiB on, and the configuration in the last 1 KiB.  The
linker script keeps the last 1 KiB free, but an erase takes a whole page,
and the page of the configuration begins 1 KiB in front of it.

One machine has the calls of the running application and the chunks of
upgrades, in any order.  `isolated_iff` says for each step whether it keeps
to its own region: it does unless the shared page has to be erased while
there is something of the other side in it.
-/
import UavcanAdapter.Config.FlashBackend
import UavcanAdapter.Flash.Download

namespace UavcanAdapter

open Base

namespace FlashWriter

variable {p : Nat} {f : Flash} {c : Chunk}

/-- The controller of the STM32F1 erases without error. -/
theorem eraseLoop_stm32f1 (p : Nat) : ∀ (n pos : Nat) (f : Flash),
    (eraseLoop (.stm32f1 p) n pos f).2 = .ok true
  | 0, _, _ => rfl
  | n + 1, pos, f => by
      rw [eraseLoop]
      split
      · have hblank : erasePage (Fpec.stm32f1 p).page 0xFF f.mem pos pos = 0xFF := if_pos rfl
        have hat : erasePageAt (.stm32f1 p) pos f
            = ({ mem := erasePage (Fpec.stm32f1 p).page 0xFF f.mem pos,
                 ops := f.ops ++ [.erase pos] }, .ok ()) := rfl
        rw [hat]
        simp only [hblank, ne_eq, not_true_eq_false, if_false]
        exact eraseLoop_stm32f1 p n (pos + 1) _
      · exact eraseLoop_stm32f1 p n (pos + 1) f

/-- An erase on the STM32F1 erases what is in use, and returns. -/
theorem erase_stm32f1 (addr howMuch : Nat) (hw32 : addr + howMuch < 2 ^ 32) :
    (erase (.stm32f1 p) addr howMuch f).1.mem
        = eraseDirty (Fpec.stm32f1 p).page 0xFF f.mem addr howMuch ∧
      (erase (.stm32f1 p) addr howMuch f).2 = .ok true := by
  have hn : wrap32 (addr + howMuch) - addr = howMuch := by
    rw [wrap32_of_lt hw32]
    omega
  have hloop := eraseLoop_stm32f1 p howMuch addr f
  rcases hres : eraseLoop (.stm32f1 p) howMuch addr f with ⟨g, r⟩
  rw [hres] at hloop
  obtain rfl : r = .ok true := hloop
  have hmem := (eraseLoop_mem (Fpec.lawful_stm32f1 p) howMuch addr f hres).2
  have hall : ((List.range howMuch).all fun i => g.mem (addr + i) == 0xFF) = true := by
    rw [List.all_eq_true]
    intro i hi
    have hlt := List.mem_range.mp hi
    rw [hmem, eraseDirty_self (by omega) (by omega)]
    rfl
  rw [erase, hn, hres]
  exact ⟨hmem, congrArg Except.ok hall⟩

/-- A write of any outcome leaves what is not among its halfwords alone. -/
theorem write_frame {hw : Fpec} (hl : hw.Lawful) (addr howMuch : Nat) {x : Nat}
    (hw32 : howMuch + 1 < 2 ^ 32)
    (hx : addr % 2 = 0 → x < addr ∨ addr + 2 * ((howMuch + 1) / 2) ≤ x) :
    (write hw addr c howMuch f).1.mem x = f.mem x := by
  rw [write]
  split
  · rfl
  · rename_i halign
    have heven : addr % 2 = 0 := by omega
    rw [wrap32_of_lt hw32]
    have hloop : (programLoop hw addr c ((howMuch + 1) / 2) 0 f).1.mem x = f.mem x :=
      programLoop_mem hl _ 0 f _ rfl (by have := hx heven; omega)
    rcases hp : programLoop hw addr c ((howMuch + 1) / 2) 0 f with ⟨g, e | u⟩
    · rwa [hp] at hloop
    · rwa [hp] at hloop

end FlashWriter

/-- The target of the Makefile. -/
def Target.connectivityLine : Target where
  hw := .stm32f1 2048
  flashSizeReg := 256
  applicationOffset := 32768
  applicationOffset_le := by decide

open Target ConfigStorageBackend

/-- `len` of the region `flash` in the linker script. -/
def applicationSizeMax : Nat := 256 * 1024 - 32 * 1024 - 1024

/-- The offset in the application area from which on a byte lies in the last
page of the flash. -/
def sharedOffset : Nat := 222 * 1024

theorem areaSize_connectivityLine : connectivityLine.areaSize = applicationSizeMax + 1024 := by
  decide

theorem hardware_address :
    hardware.address = connectivityLine.applicationAddress + applicationSizeMax := by decide

/-! ## What the calls leave in the flash -/

section Frame

variable {f : Flash} {c : Config} {x : Nat}

/-- Erasing the configuration succeeds, and erases what is in use of it. -/
theorem erase_flashStorage (f : Flash) : ∃ g, Config.flashStorage.erase f = (g, .ok 0) ∧
    g.mem = eraseDirty (Fpec.stm32f1 2048).page 0xFF f.mem hardware.address hardware.size := by
  obtain ⟨hmem, hok⟩ := FlashWriter.erase_stm32f1 (p := 2048) (f := f) hardware.address
    hardware.size hardware.end_lt
  refine ⟨_, ?_, hmem⟩
  change hardware.erase (.stm32f1 2048) f = _
  rcases he : FlashWriter.erase (.stm32f1 2048) hardware.address hardware.size f with ⟨g, r⟩
  rw [he] at hok
  obtain rfl : r = .ok true := hok
  rw [ConfigStorageBackend.erase, he]
  rfl

/-- A write to the configuration leaves what is in front of it alone. -/
theorem write_flashStorage_frame {offset : Nat} {data : List UInt8} (ho : offset % 2 = 0)
    (hd : data.length % 2 = 0) (hfits : offset + data.length ≤ hardware.size)
    (hx : x < hardware.address) : (Config.flashStorage.write offset data f).1.mem x = f.mem x := by
  have hend := hardware.end_lt
  have hmem := FlashWriter.write_frame (Fpec.lawful_stm32f1 2048) (hardware.address + offset)
    data.length (f := f) (c := { bytes := data }) (x := x) (by omega) (by omega)
  change (hardware.write (.stm32f1 2048) offset data f).1.mem x = f.mem x
  rw [ConfigStorageBackend.write, wrap32_of_lt (by omega), if_neg (by omega)]
  rcases hw : FlashWriter.write (.stm32f1 2048) (hardware.address + offset) { bytes := data }
    data.length f with ⟨g, e | ok⟩
  · rwa [hw] at hmem
  · rwa [hw] at hmem

/-- In front of the configuration, `configSave` does what its erase does. -/
theorem configSave_frame (hfrozen : c.frozen = true) (hmax : c.pool.length ≤ configParamsMax)
    (hx : x < hardware.address) :
    (Config.configSave Config.flashStorage c f).1.mem x =
      eraseDirty (Fpec.stm32f1 2048).page 0xFF f.mem hardware.address hardware.size x := by
  obtain ⟨g, herase, hmem⟩ := erase_flashStorage f
  rw [← hmem]
  have htriple : Prog.Triple (fun f' => f' = f) (Config.configSave Config.flashStorage c)
      (fun r (f' : Flash) => if r = 0 then f'.mem x = g.mem x else f'.mem x = g.mem x)
      (fun f' => f'.mem x = g.mem x) := by
    refine Config.configSave_triple (fun _ (f' : Flash) => f'.mem x = g.mem x) hfrozen ?_ ?_
    · rintro f' rfl
      rw [herase]
      exact (if_pos rfl).mpr rfl
    · intro pre data hprefix hpre hdata f' hf'
      have hle := hprefix.length_le
      rw [List.length_append, Config.length_image] at hle
      have hfits : pre.length + data.length ≤ hardware.size := by
        have hsize : hardware.size = 1024 := rfl
        simp only [configParamsMax, offsetValues] at hmax hle
        omega
      have hkeep := write_flashStorage_frame hpre hdata hfits hx (f := f')
      rw [hf'] at hkeep
      rcases hw : Config.flashStorage.write pre.length data f' with ⟨f'', e | r⟩
      · rwa [hw] at hkeep
      · rw [hw] at hkeep
        simpa using hkeep
  refine htriple.left rfl (fun r f' h => ?_) (fun _ h => h)
  simpa using h

/-- `configErase` does to the flash what its erase does. -/
theorem configErase_mem (hfrozen : c.frozen = true) :
    (Config.configErase Config.flashStorage c f).1.mem =
      eraseDirty (Fpec.stm32f1 2048).page 0xFF f.mem hardware.address hardware.size := by
  obtain ⟨g, herase, hmem⟩ := erase_flashStorage f
  rw [← hmem, Config.configErase, Prog.assert_bind hfrozen, Prog.bind_of_ok herase]
  rfl

/-- Behind an image, a write of a part of it does what its erase does. -/
theorem write_connectivityLine_frame {offset : Nat} {ch : Chunk}
    (hfits : offset + ch.size ≤ applicationSizeMax) (hx : hardware.address ≤ x) :
    (AppStorageBackend.write connectivityLine offset ch f).1.mem x =
      eraseDirty (Fpec.stm32f1 2048).page 0xFF f.mem
        (connectivityLine.applicationAddress + offset) ch.size x := by
  have haddr := hardware_address
  have happ : connectivityLine.applicationAddress = 0x08008000 := by decide
  simp only [applicationSizeMax] at hfits haddr
  have hcorrect : AppStorageBackend.correctOffsetAndSize connectivityLine offset ch.size
      = some (connectivityLine.applicationAddress + offset, ch.size) := by
    have hsize := areaSize_connectivityLine
    simp only [applicationSizeMax] at hsize
    rw [AppStorageBackend.correct_eq (by omega) (by omega), if_neg (by omega),
      Nat.min_eq_left (by omega)]
  obtain ⟨hmem, hok⟩ := FlashWriter.erase_stm32f1 (p := 2048) (f := f)
    (connectivityLine.applicationAddress + offset) ch.size (by omega)
  have hhw : connectivityLine.hw = .stm32f1 2048 := rfl
  rw [AppStorageBackend.write, hcorrect, hhw, ← hmem]
  simp only
  rcases he : FlashWriter.erase (.stm32f1 2048) (connectivityLine.applicationAddress + offset)
    ch.size f with ⟨g, r⟩
  rw [he] at hok
  obtain rfl : r = .ok true := hok
  have hkeep := FlashWriter.write_frame (Fpec.lawful_stm32f1 2048)
    (connectivityLine.applicationAddress + offset) ch.size (f := g) (c := ch) (x := x) (by omega)
    (by omega)
  simp only
  rcases hw : FlashWriter.write (.stm32f1 2048) (connectivityLine.applicationAddress + offset) ch
    ch.size g with ⟨g', e | ok⟩
  · rwa [hw] at hkeep
  · rwa [hw] at hkeep

end Frame

/-! ## The shared page -/

/-- The configuration holds nothing. -/
def ConfigBlank (m : Nat → UInt8) : Prop := ∀ j < hardware.size, m (hardware.address + j) = 0xFF

/-- What lies in the shared page of the bytes `lo .. hi` of the application
area is blank. -/
def PartBlank (m : Nat → UInt8) (lo hi : Nat) : Prop :=
  ∀ i, sharedOffset ≤ i → lo ≤ i → i < hi → m (connectivityLine.applicationAddress + i) = 0xFF

/-- A part of an image and the configuration are apart iff one of them is
blank in the page they share. -/
theorem apart_iff (m : Nat → UInt8) (lo n : Nat) (hfits : lo + n ≤ applicationSizeMax) :
    Apart (Fpec.stm32f1 2048).page 0xFF m (connectivityLine.applicationAddress + lo) n
        hardware.address hardware.size ↔ ConfigBlank m ∨ PartBlank m lo (lo + n) := by
  have happ : connectivityLine.applicationAddress = 0x08008000 := by decide
  have haddr := hardware_address
  have hsize : hardware.size = 1024 := rfl
  have hpage : ∀ i j, i < n → j < hardware.size →
      ((Fpec.stm32f1 2048).page (connectivityLine.applicationAddress + lo + i)
        = (Fpec.stm32f1 2048).page (hardware.address + j) ↔ sharedOffset ≤ lo + i) := by
    intro i j hi hj
    simp only [Fpec.page, Fpec.stm32f1, flashBase, sharedOffset, applicationSizeMax]
      at hj hfits haddr ⊢
    omega
  constructor
  · intro h
    by_cases hblank : ConfigBlank m
    · exact Or.inl hblank
    obtain ⟨j, hj, hm⟩ : ∃ j, j < hardware.size ∧ m (hardware.address + j) ≠ 0xFF := by
      simpa only [ConfigBlank, not_forall, exists_prop] using hblank
    refine Or.inr fun i hshared hlo hhi => ?_
    obtain ⟨k, rfl⟩ : ∃ k, i = lo + k := ⟨i - lo, by omega⟩
    rw [← Nat.add_assoc]
    exact (h k (by omega) j hj ((hpage k j (by omega) hj).mpr hshared)).resolve_right hm
  · rintro (hblank | hpart) i hi j hj hp
    · exact Or.inr (hblank j hj)
    · rw [Nat.add_assoc]
      exact Or.inl (hpart _ ((hpage i j hi hj).mp hp) (by omega) (by omega))

/-! ## The device -/

/-- An image the linker script admits. -/
abbrev ImageSize := { n : Nat // n ≤ applicationSizeMax }

/-- The device, in the application or in the bootloader. -/
structure Device where
  flash : Flash
  /-- the size of the image that is installed or is being downloaded -/
  imageSize : ImageSize
  running : Bool := true
  /-- the offset in the sink of the upgrade -/
  offset : Nat := 0

/-- What the device can do.  A call comes with the pool it is made with. -/
inductive DeviceEvent
  | configSave (c : Config)
  | configErase (c : Config)
  | beginUpgrade (imageSize : ImageSize)
  | handleNextDataChunk (c : Chunk)
  | boot

namespace Device

/-- The sink of `UAVCANFirmwareUpdateNode`, with the limit `main` gives it. -/
def sink (d : Device) : Sink := { maxImageSize := connectivityLine.getFlashSize, offset := d.offset }

/-- The application calls after `init`; a download delivers no more than its
image. -/
def Allowed (d : Device) : DeviceEvent → Prop
  | .configSave c => d.running = true ∧ c.frozen = true ∧ c.pool.length ≤ configParamsMax
  | .configErase c => d.running = true ∧ c.frozen = true
  | .beginUpgrade _ => True
  | .handleNextDataChunk c => d.running = false ∧ d.offset + c.size ≤ d.imageSize
  | .boot => True

/-- A call that does not return leaves its flash behind. -/
def next (d : Device) : DeviceEvent → Device
  | .configSave c => { d with flash := (Config.configSave Config.flashStorage c d.flash).1 }
  | .configErase c => { d with flash := (Config.configErase Config.flashStorage c d.flash).1 }
  | .beginUpgrade imageSize => { d with imageSize, running := false, offset := 0 }
  | .handleNextDataChunk c =>
      match d.sink.handleNextDataChunk (appStorageBackend connectivityLine) c d.flash with
      | .ok (flash, sink, _) => { d with flash, offset := sink.offset }
      | .error _ =>
          { d with flash := (AppStorageBackend.write connectivityLine d.offset c d.flash).1 }
  | .boot => { d with running := true }

/-- The device from a start with any image and any configuration. -/
def machine : Machine Device DeviceEvent where
  init d := d.running = true
  step d e d' := d.Allowed e ∧ d' = d.next e

/-- The `i`-th byte of the application area. -/
def imageByte (d : Device) (i : Nat) : UInt8 := d.flash.mem (connectivityLine.applicationAddress + i)

/-- The `j`-th byte of the configuration. -/
def configByte (d : Device) (j : Nat) : UInt8 := d.flash.mem (hardware.address + j)

/-- No byte of the image has changed. -/
def ImageKept (d d' : Device) : Prop := ∀ i < d.imageSize.1, d'.imageByte i = d.imageByte i

/-- No byte of the configuration has changed. -/
def ConfigKept (d d' : Device) : Prop := ∀ j < hardware.size, d'.configByte j = d.configByte j

end Device

namespace DeviceEvent

def IsConfigCall : DeviceEvent → Prop
  | .configSave _ | .configErase _ => True
  | _ => False

def IsUpgrade : DeviceEvent → Prop
  | .beginUpgrade _ | .handleNextDataChunk _ => True
  | _ => False

/-- An event keeps to its own side. -/
def Isolated (e : DeviceEvent) (d d' : Device) : Prop :=
  (e.IsConfigCall → d.ImageKept d') ∧ (e.IsUpgrade → d.ConfigKept d')

/-- The shared page need not be erased, or holds nothing of the other side. -/
def NothingShared (e : DeviceEvent) (d : Device) : Prop :=
  match e with
  | .configSave _ | .configErase _ =>
      ConfigBlank d.flash.mem ∨ PartBlank d.flash.mem 0 d.imageSize
  | .handleNextDataChunk c =>
      ConfigBlank d.flash.mem ∨ PartBlank d.flash.mem d.offset (d.offset + c.size)
  | .beginUpgrade _ | .boot => True

variable {e : DeviceEvent} {d d' : Device}

theorem isolated_configCall (he : e.IsConfigCall) : e.Isolated d d' ↔ d.ImageKept d' := by
  refine ⟨fun h => h.1 he, fun h => ⟨fun _ => h, fun hup => ?_⟩⟩
  cases e <;> first | exact he.elim | exact hup.elim

theorem isolated_upgrade (he : e.IsUpgrade) : e.Isolated d d' ↔ d.ConfigKept d' := by
  refine ⟨fun h => h.2 he, fun h => ⟨fun hcall => ?_, fun _ => h⟩⟩
  cases e <;> first | exact he.elim | exact hcall.elim

end DeviceEvent

namespace Device

open DeviceEvent

variable {d d' : Device} {e : DeviceEvent}

/-- A chunk that fits its image goes to the flash. -/
theorem flash_handleNextDataChunk {c : Chunk} (hfits : d.offset + c.size ≤ d.imageSize) :
    (d.next (.handleNextDataChunk c)).flash
      = (AppStorageBackend.write connectivityLine d.offset c d.flash).1 := by
  have himage := d.imageSize.2
  have hmax : d.sink.maxImageSize = 262144 := by
    change connectivityLine.getFlashSize = _
    decide
  have hoff : d.sink.offset = d.offset := rfl
  simp only [applicationSizeMax] at himage
  have hroom : wrap32 (d.sink.offset + c.size) ≤ d.sink.maxImageSize := by
    rw [hmax, hoff, wrap32_of_lt (by omega)]
    omega
  rcases hleft : AppStorageBackend.write connectivityLine d.offset c d.flash with ⟨g, left⟩
  rw [next, hleft]
  rcases hone : d.sink.handleNextDataChunk (appStorageBackend connectivityLine) c d.flash with
    err | ⟨f, sink', r⟩
  · rfl
  · rcases Sink.handle_cases hone with ⟨hbig, -⟩ | ⟨-, res, hw, -⟩
    · exact absurd hroom (Nat.not_le.mpr hbig)
    · have hwrite := appStorageBackend_write hw
      rw [hoff, hleft] at hwrite
      cases hwrite
      rfl

theorem imageKept_iff (h : ∀ x < hardware.address, d'.flash.mem x = eraseDirty
      (Fpec.stm32f1 2048).page 0xFF d.flash.mem hardware.address hardware.size x) :
    d.ImageKept d' ↔ ConfigBlank d.flash.mem ∨ PartBlank d.flash.mem 0 d.imageSize := by
  have himage := d.imageSize.2
  have haddr := hardware_address
  have hapart := apart_iff d.flash.mem 0 d.imageSize.1 (by omega)
  rw [apart_comm, ← eraseDirty_keeps_iff, Nat.zero_add, Nat.add_zero] at hapart
  rw [← hapart]
  refine forall₂_congr fun i hi => ?_
  rw [imageByte, h (connectivityLine.applicationAddress + i) (by omega)]
  rfl

theorem configKept_iff {n : Nat} (hfits : d.offset + n ≤ d.imageSize)
    (h : ∀ x, hardware.address ≤ x → d'.flash.mem x = eraseDirty (Fpec.stm32f1 2048).page 0xFF
      d.flash.mem (connectivityLine.applicationAddress + d.offset) n x) :
    d.ConfigKept d' ↔
      ConfigBlank d.flash.mem ∨ PartBlank d.flash.mem d.offset (d.offset + n) := by
  have himage := d.imageSize.2
  have hapart := apart_iff d.flash.mem d.offset n (by omega)
  rw [← eraseDirty_keeps_iff] at hapart
  rw [← hapart]
  refine forall₂_congr fun j _ => ?_
  rw [configByte, h (hardware.address + j) (by omega)]
  rfl

/-- An event keeps to its own side iff nothing is shared. -/
theorem isolated_iff (hst : machine.step d e d') : e.Isolated d d' ↔ e.NothingShared d := by
  obtain ⟨hallowed, rfl⟩ := hst
  cases e with
  | configSave c =>
      obtain ⟨-, hfrozen, hmax⟩ := hallowed
      rw [isolated_configCall (by trivial), NothingShared, imageKept_iff]
      intro x hx
      rw [next, configSave_frame hfrozen hmax hx]
  | configErase c =>
      obtain ⟨-, hfrozen⟩ := hallowed
      rw [isolated_configCall (by trivial), NothingShared, imageKept_iff]
      intro x _
      rw [next, configErase_mem hfrozen]
  | beginUpgrade imageSize =>
      rw [isolated_upgrade (by trivial), NothingShared]
      exact iff_of_true (fun _ _ => rfl) trivial
  | handleNextDataChunk c =>
      obtain ⟨-, hfits⟩ := hallowed
      have himage := d.imageSize.2
      rw [isolated_upgrade (by trivial), NothingShared, configKept_iff hfits]
      intro x hx
      rw [flash_handleNextDataChunk hfits, write_connectivityLine_frame (by omega) hx]
  | boot => exact iff_of_true ⟨False.elim, False.elim⟩ trivial

theorem imageSize_next (he : e.IsConfigCall) : (d.next e).imageSize = d.imageSize := by
  cases e <;> first | rfl | exact he.elim

/-- Calls of the application keep the image as long as nothing is shared. -/
theorem run_imageKept {es : List DeviceEvent}
    (h : (machine.restrict fun d e _ => e.NothingShared d).Run d es d') :
    (∀ e ∈ es, e.IsConfigCall) → d.ImageKept d' := by
  induction h with
  | nil => exact fun _ _ _ => rfl
  | @cons d d₁ d' e es hst _ ih =>
      intro hall i hi
      have he := hall e List.mem_cons_self
      have hkept := ((isolated_iff hst.1).mpr hst.2).1 he
      have hsize : d₁.imageSize = d.imageSize := by rw [hst.1.2, imageSize_next he]
      have hrest := ih (fun e' he' => hall e' (List.mem_cons_of_mem e he')) i (by rwa [hsize])
      rw [hrest]
      exact hkept i hi

/-- Upgrades keep the configuration as long as nothing is shared. -/
theorem run_configKept {es : List DeviceEvent}
    (h : (machine.restrict fun d e _ => e.NothingShared d).Run d es d') :
    (∀ e ∈ es, e.IsUpgrade) → d.ConfigKept d' := by
  induction h with
  | nil => exact fun _ _ _ => rfl
  | @cons d d₁ d' e es hst _ ih =>
      intro hall j hj
      have hkept := ((isolated_iff hst.1).mpr hst.2).2 (hall e List.mem_cons_self)
      have hrest := ih (fun e' he' => hall e' (List.mem_cons_of_mem e he')) j hj
      rw [hrest]
      exact hkept j hj

/-- On the connectivity line device an event keeps to its own side iff the
configuration is blank, or what the event's image or chunk has in the page
of the configuration is.  Where all events are so, calls of the application
change no byte of the image, and upgrades no byte of the configuration. -/
theorem image_and_config_isolated {d : Device} (_ : machine.Reachable d) :
    (∀ e d', machine.step d e d' → (e.Isolated d d' ↔ e.NothingShared d)) ∧
    ∀ es d', (machine.restrict fun d e _ => e.NothingShared d).Run d es d' →
      ((∀ e ∈ es, e.IsConfigCall) → d.ImageKept d') ∧
      ((∀ e ∈ es, e.IsUpgrade) → d.ConfigKept d') :=
  ⟨fun _ _ hst => isolated_iff hst, fun _ _ hrun => ⟨run_imageKept hrun, run_configKept hrun⟩⟩

/-- A flash of zeros with the largest image that does not reach the shared
page. -/
def besideShared : Device where
  flash := { mem := fun _ => 0 }
  imageSize := ⟨sharedOffset, by decide⟩

/-- A flash of zeros with an image of one byte more. -/
def insideShared : Device where
  flash := { mem := fun _ => 0 }
  imageSize := ⟨sharedOffset + 1, by decide⟩

/-- `configSave`, with a pool that was initialized without parameters. -/
def oneSave : DeviceEvent := .configSave { frozen := true }

/-- The smaller image survives a save. -/
theorem image_and_config_isolated_besideShared :
    (machine.restrict fun d e _ => e.NothingShared d).Run besideShared [oneSave]
      (besideShared.next oneSave) ∧ besideShared.ImageKept (besideShared.next oneSave) := by
  have hnothing : oneSave.NothingShared besideShared := by
    refine Or.inr ?_
    intro i hshared _ hi
    exact absurd hi (Nat.not_lt.mpr hshared)
  have hrun : (machine.restrict fun d e _ => e.NothingShared d).Run besideShared [oneSave]
      (besideShared.next oneSave) := .cons ⟨⟨⟨rfl, rfl, by decide⟩, rfl⟩, hnothing⟩ .nil
  refine ⟨hrun, (image_and_config_isolated (d := besideShared) (.init rfl)).2 _ _ hrun |>.1 ?_⟩
  intro e he
  rw [List.mem_singleton.mp he]
  trivial

/-- The larger one does not. -/
theorem image_not_isolated : ¬∀ d es d', machine.Reachable d → machine.Run d es d' →
    ((∀ e ∈ es, e.IsConfigCall) → d.ImageKept d') ∧
    ((∀ e ∈ es, e.IsUpgrade) → d.ConfigKept d') := by
  intro h
  have hst : machine.step insideShared oneSave (insideShared.next oneSave) :=
    ⟨⟨rfl, rfl, by decide⟩, rfl⟩
  have hkept : insideShared.ImageKept (insideShared.next oneSave) := by
    refine (h insideShared [oneSave] _ (.init rfl) (.cons hst .nil)).1 ?_
    intro e he
    rw [List.mem_singleton.mp he]
    trivial
  have hisolated : oneSave.Isolated insideShared (insideShared.next oneSave) :=
    (isolated_configCall (e := oneSave) trivial).mpr hkept
  have hnothing := (isolated_iff hst).mp hisolated
  rcases hnothing with hblank | hpart
  · have h0 : (0 : UInt8) = 0xFF := hblank 0 (by decide)
    exact absurd h0 (by decide)
  · have h0 : (0 : UInt8) = 0xFF := hpart sharedOffset le_rfl (Nat.zero_le _) (Nat.lt_succ_self _)
    exact absurd h0 (by decide)

end Device

end UavcanAdapter
