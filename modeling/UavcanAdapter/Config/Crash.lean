/-
# `Config.Crash` — losing power while saving

Wherever the power goes off during `configSave`, the area is as it was, or
it holds a whole number of halfwords of the image and blanks behind them
(`configSave_cut`).  Header and CRC may be there without the values, and
may even match what is not there; but a value that was not programmed as a
whole has a blank upper halfword, so it is not a finite number and `init`
puts the default in its place.
-/
import UavcanAdapter.Config.FlashBackend

namespace UavcanAdapter

open Base

namespace ConfigStorageBackend

variable {area : ConfigStorageBackend} {hw : Fpec} {f : Flash} {bs data : List UInt8}

/-- The bytes of the area are those of `f`, or a whole number of halfwords
of `bs` with blanks behind them. -/
def CutShort (area : ConfigStorageBackend) (f : Flash) (bs : List UInt8) (f' : Flash) : Prop :=
  (∀ i < area.size, f'.mem (area.address + i) = f.mem (area.address + i)) ∨
    ∃ p, p <+: bs ∧ p.length % 2 = 0 ∧ f'.Filled area.address area.size p

theorem erase_triple (ha : hw.Atomic)
    (hpage : ∀ i < area.size, hw.page (area.address + i) = hw.page area.address) :
    Prog.Triple (· = f) (area.erase hw)
      (fun r f' => if r = 0 then f'.Filled area.address area.size [] else area.CutShort f bs f')
      (area.CutShort f bs) := by
  rintro g rfl
  have hcut : area.CutShort g bs (FlashWriter.erase hw area.address area.size g).1 := by
    rcases FlashWriter.erase_cut ha area.address area.size g hpage with h | h
    · exact Or.inl h
    · exact Or.inr ⟨[], List.nil_prefix, rfl, h⟩
  have hfst : (FlashWriter.erase hw area.address area.size g).1 = (area.erase hw g).1 := by
    rw [erase]
    split
    · rename_i heq
      rw [heq]
    · rename_i heq
      rw [heq]
  rw [hfst] at hcut
  rcases hres : area.erase hw g with ⟨f', e | r⟩
  · rwa [hres] at hcut
  · rw [hres] at hcut
    by_cases h0 : r = 0
    · subst h0
      exact (if_pos rfl).mpr (erase_filled hres)
    · exact (if_neg h0).mpr hcut

theorem write_triple (ha : hw.Atomic) {whole : List UInt8} (hwhole : bs ++ data <+: whole)
    (hbs : bs.length % 2 = 0) (hdata : data.length % 2 = 0)
    (hfits : bs.length + data.length ≤ area.size) :
    Prog.Triple (fun f => f.Filled area.address area.size bs) (area.write hw bs.length data)
      (fun r f' => if r = 0 then f'.Filled area.address area.size (bs ++ data)
        else area.CutShort f whole f')
      (area.CutShort f whole) := by
  intro g hg
  have hend := area.end_lt
  have hpos := area.address_pos
  obtain ⟨⟨j, hj⟩, hall⟩ := FlashWriter.write_cut (c := { bytes := data }) ha hg hdata
    (show data.length + 1 < 2 ^ 32 by omega)
  have hprefix : bs ++ data.take (2 * j) <+: whole :=
    ((List.prefix_append_right_inj bs).mpr (List.take_prefix _ data)).trans hwhole
  have heven : (bs ++ data.take (2 * j)).length % 2 = 0 := by
    rw [List.length_append, List.length_take]
    omega
  rw [write, wrap32_of_lt (by omega), if_neg (by omega)]
  rcases hres : FlashWriter.write hw (area.address + bs.length) { bytes := data } data.length g with
    ⟨g', e | ok⟩
  · rw [hres] at hj
    exact Or.inr ⟨_, hprefix, heven, hj⟩
  · rw [hres] at hall
    have hfilled := hall ok rfl
    cases ok
    · exact Or.inr ⟨_, hwhole, by rw [List.length_append]; omega, hfilled⟩
    · exact hfilled

end ConfigStorageBackend

namespace Config

open ConfigStorageBackend

variable {area : ConfigStorageBackend} {hw : Fpec} {c : Config} {f f' : Flash}

/-- Whether `configSave` runs to its end or is cut off, it leaves the area
as it was, or with some of the image. -/
theorem configSave_cut (area : ConfigStorageBackend) (f : Flash) (ha : hw.Atomic)
    (hpage : ∀ i < area.size, hw.page (area.address + i) = hw.page area.address)
    (hfrozen : c.frozen = true) (hmax : c.pool.length ≤ configParamsMax) :
    area.CutShort f (image c) (configSave (area.storage hw) c f).1 := by
  have hsize := area.le_size
  have htriple : Prog.Triple (· = f) (configSave (area.storage hw) c)
      (fun r f' => if r = 0 then f'.Filled area.address area.size (image c)
        else area.CutShort f (image c) f') (area.CutShort f (image c)) := by
    refine configSave_triple (fun bs (f : Flash) => f.Filled area.address area.size bs) hfrozen
      (erase_triple ha hpage) ?_
    intro pre data hprefix hpre hdata
    have hle := hprefix.length_le
    simp only [List.length_append, length_image, offsetValues, configParamsMax] at hle hmax
    exact write_triple ha hprefix hpre hdata (by omega)
  refine htriple.left rfl ?_ fun _ h => h
  intro r f' h
  by_cases h0 : r = 0
  · rw [if_pos h0] at h
    exact Or.inr ⟨_, List.prefix_refl _, by simp [offsetValues]; omega, h⟩
  · rwa [if_neg h0] at h

/-- From some of the image every parameter comes back with the value that
was to be saved, or with its default. -/
theorem restore_cut {p : List UInt8} {n i : Nat} {d : ConfigParam} (hp : p <+: image c)
    (heven : p.length % 2 = 0)
    (hn : (image c).length ≤ (p ++ List.replicate n (0xFF : UInt8)).length)
    (hd : c.descrs[i]? = some d) :
    (restore (started c.descrs) (p ++ List.replicate n 0xFF)).1.pool[i]?
        = some { descr := d, value := d.default_ } ∨
      (restore (started c.descrs) (p ++ List.replicate n 0xFF)).1.pool[i]? = c.pool[i]? := by
  have hi : i < c.pool.length := by
    rw [← length_descrs]
    exact (List.getElem?_eq_some_iff.mp hd).1
  have hv := List.getElem?_eq_getElem (l := c.values) (by simpa using hi)
  have hd' : (started c.descrs).descrs[i]? = some d := by rwa [descrs_started]
  have htake : p = (image c).take (2 * (p.length / 2)) := by
    have hlen : 2 * (p.length / 2) = p.length := by omega
    rw [hlen]
    exact List.prefix_iff_eq_take.mp hp
  rcases restore_cases (p ++ List.replicate n 0xFF) hd' with h | ⟨-, -, hvalid, h⟩
  · exact Or.inl h
  · right
    have hword : storedValue (p ++ List.replicate n 0xFF) i = storedValue (image c) i ∨
        Torn (storedValue (p ++ List.replicate n 0xFF) i) := by
      rw [htake]
      refine wordAt_cut (by simp [offsetValues]; omega) (by simp [offsetValues]; omega) ?_
      rw [← htake]
      simp only [length_image, offsetValues] at hn ⊢
      omega
    rcases hword with hword | htorn
    · have himage := storedValue_image [] hv
      rw [List.append_nil] at himage
      rw [h, hword, himage, getElem?_pool hd hv]
    · rw [not_isValid_of_torn htorn] at hvalid
      cases hvalid

/-- The area lies in one page. -/
theorem hardware_page : ∀ i < hardware.size,
    (Fpec.stm32f1 2048).page (hardware.address + i) = (Fpec.stm32f1 2048).page hardware.address := by
  intro i hi
  simp only [Fpec.page, Fpec.stm32f1, hardware, flashBase] at hi ⊢
  omega

/-- The power goes off after any number of flash operations of `configSave`.
The next boot with the same parameters ends as it would have before, or
every parameter has its newly saved value or its default. -/
theorem crash_consistent (c : Config) (hwf : WellFormed c) (hfrozen : c.frozen = true) (f : Flash)
    (n : Nat) : ∃ (f' : Flash) (c' : Config) (res : Int),
    (configSave (hardware.storage ((Fpec.stm32f1 2048).powerLoss n)) c f).1 = f' ∧
    boot flashStorage c.descrs f' = (f', .ok (c', res)) ∧
    (boot flashStorage c.descrs f = (f, .ok (c', res)) ∨
      ∀ (i : Nat) (d : ConfigParam), c.descrs[i]? = some d →
        c'.pool[i]? = some { descr := d, value := d.default_ } ∨ c'.pool[i]? = c.pool[i]?) := by
  have hmax : c.pool.length ≤ configParamsMax := by
    rw [← length_descrs]
    exact hwf.registered.atMost
  have hcut := configSave_cut hardware f ((Fpec.atomic_stm32f1 2048).powerLoss n) hardware_page
    hfrozen hmax
  refine ⟨_, _, _, rfl, boot_flash _ _ _ hwf.registered, ?_⟩
  rcases hcut with hsame | ⟨p, hp, heven, hfilled⟩
  · left
    have hcontent : hardware.content
        (configSave (hardware.storage ((Fpec.stm32f1 2048).powerLoss n)) c f).1
        = hardware.content f :=
      List.map_congr_left fun i hi => hsame i (List.mem_range.mp hi)
    rw [hcontent]
    exact boot_flash _ _ _ hwf.registered
  · right
    intro i d hd
    have hle := hp.length_le
    have hsize : hardware.size = 1024 := rfl
    simp only [length_image, offsetValues, configParamsMax] at hle hmax
    rw [content_of_filled hfilled (by omega)]
    refine restore_cut hp heven ?_ hd
    simp only [length_image, offsetValues, List.length_append, List.length_replicate]
    omega

/-- One parameter set to 2: the power goes off after five operations, when
half of the value is programmed, and the default comes back. -/
theorem crash_consistent_half_value : ∃ (c : Config) (f f' : Flash) (c' : Config) (res : Int),
    c.values = [0x40000000] ∧
    (configSave (hardware.storage ((Fpec.stm32f1 2048).powerLoss 5)) c f).1 = f' ∧
    f'.ops.length = 6 ∧ boot flashStorage c.descrs f' = (f', .ok (c', res)) ∧
    (boot flashStorage c.descrs f = (f, .ok (c', res)) ∨
      ∀ (i : Nat) (d : ConfigParam), c.descrs[i]? = some d →
        c'.pool[i]? = some { descr := d, value := d.default_ } ∨ c'.pool[i]? = c.pool[i]?) := by
  have hrun : Call.ReturnsWith (performAll flashStorage oneParamSet {} blankFlash).2
      (fun c => c.values = [0x40000000] ∧ c.frozen = true ∧
        (configSave (hardware.storage ((Fpec.stm32f1 2048).powerLoss 5)) c blankFlash).1.ops.length
          = 6) := by
    decide +kernel
  obtain ⟨c, ⟨hvalues, hfrozen, hops⟩, hr⟩ := exists_reachable hrun
  obtain ⟨f', c', res, hf', hboot, h⟩ :=
    crash_consistent c (reachable_wellFormed hr) hfrozen blankFlash 5
  exact ⟨c, blankFlash, f', c', res, hvalues, hf', hf' ▸ hops, hboot, h⟩

end Config

end UavcanAdapter
