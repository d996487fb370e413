/-
# `Config.Layout` — restoring under other parameters

A firmware that registers other parameters than the one that saved the pool
tells the layouts apart by two CRCs: one over the names, one after another
without a separator, and one over the values.  Where both match, each value
goes to the parameter in its place, whatever the names there are.
`restore_same_name_iff` says exactly when every parameter still ends with a
value that was saved under its name, or with its default.
-/
import UavcanAdapter.Config.FlashBackend

namespace UavcanAdapter.Config

open Base ConfigStorageBackend

variable {c : Config} {k i : Nat}

/-- The `n` words that are read back behind the header of saved values. -/
def readBack (values : List UInt32) (n : Nat) : List UInt32 :=
  (values ++ List.replicate n 0xFFFFFFFF).take n

theorem slice_blank {bs : List UInt8} {o n : Nat} (ho : bs.length ≤ o)
    (hn : o + n ≤ bs.length + k) :
    slice (bs ++ List.replicate k (0xFF : UInt8)) o n = List.replicate n 0xFF := by
  rw [slice, List.drop_append, List.drop_eq_nil_of_le ho, List.nil_append, List.drop_replicate,
    List.take_replicate, Nat.min_eq_left (by omega)]

/-- Behind the values that were saved there are blank words. -/
theorem storedValue_blank (hi : c.pool.length ≤ i)
    (hk : offsetValues + 4 * (i + 1) ≤ (image c).length + k) :
    storedValue (image c ++ List.replicate k 0xFF) i = 0xFFFFFFFF := by
  apply wordAt_of_slice
  rw [slice_blank]
  · decide
  · rw [length_image]
    omega
  · omega

theorem map_storedValue {n : Nat} (hk : offsetValues + 4 * n ≤ (image c).length + k) :
    (List.range n).map (storedValue (image c ++ List.replicate k 0xFF)) = readBack c.values n := by
  apply List.ext_getElem?
  intro i
  rcases Nat.lt_or_ge i n with hi | hi
  · rw [List.getElem?_map, List.getElem?_range hi, Option.map_some, readBack,
      List.getElem?_take_of_lt hi]
    rcases Nat.lt_or_ge i c.values.length with hlt | hge
    · rw [List.getElem?_append_left hlt, List.getElem?_eq_getElem hlt,
        storedValue_image _ (List.getElem?_eq_getElem hlt)]
    · rw [List.getElem?_append_right hge, List.getElem?_replicate, if_pos (by omega),
        storedValue_blank (by simpa using hge) (by omega)]
  · rw [List.getElem?_eq_none (by simpa using hi), List.getElem?_eq_none]
    rw [readBack, List.length_take]
    omega

/-- A word read back that is valid for some parameter was saved: the blank
words behind the saved ones are not numbers. -/
theorem exists_value_of_isValid {d : ConfigParam}
    (hvalid : isValid d (storedValue (image c ++ List.replicate k 0xFF) i) = true)
    (hk : offsetValues + 4 * (i + 1) ≤ (image c).length + k) :
    ∃ v, c.values[i]? = some v ∧ storedValue (image c ++ List.replicate k 0xFF) i = v := by
  rcases Nat.lt_or_ge i c.values.length with hlt | hge
  · have hv := List.getElem?_eq_getElem hlt
    exact ⟨_, hv, storedValue_image _ hv⟩
  · have htorn : Torn 0xFFFFFFFF := by
      rw [Torn]
      decide
    rw [storedValue_blank (by simpa using hge) hk, not_isValid_of_torn htorn] at hvalid
    cases hvalid

/-- Every parameter of `c'` has its default, or a value that `c` has under
the same name. -/
def SameName (c c' : Config) : Prop :=
  ∀ e ∈ c'.pool, e.value = e.descr.default_ ∨
    ∃ e₀ ∈ c.pool, e₀.descr.name = e.descr.name ∧ e.value = e₀.value

instance (c c' : Config) : Decidable (SameName c c') :=
  inferInstanceAs (Decidable (∀ e ∈ c'.pool, e.value = e.descr.default_ ∨
    ∃ e₀ ∈ c.pool, e₀.descr.name = e.descr.name ∧ e.value = e₀.value))

/-- A pool saved under some parameters and restored under others: every
parameter ends with its default or with what was saved under its name iff
the layout hashes differ, or the CRC is not that of the words read back, or
each saved value that is valid for the parameter in its place was saved
under that parameter's name, or is the default anyway. -/
theorem restore_same_name_iff (area : ConfigStorageBackend) (hw : Fpec) (hl : hw.Lawful)
    {s : Config × Flash} (h : (machine (area.storage hw)).Reachable s) {f' : Flash}
    (hsave : configSave (area.storage hw) s.1 s.2 = (f', .ok 0)) (ds : List ConfigParam)
    (hds : Registered ds) :
    (∃ c' res, boot (area.storage hw) ds f' = (f', .ok (c', res)) ∧ SameName s.1 c') ↔
      layoutHashOf (ds.map ConfigParam.name) ≠ layoutHashOf (s.1.descrs.map ConfigParam.name) ∨
      crc32 (wordsBytes (readBack s.1.values ds.length)) ≠ crc32 (wordsBytes s.1.values) ∨
      ∀ (i : Nat) (d : ConfigParam) (v : UInt32), ds[i]? = some d → s.1.values[i]? = some v →
        isValid d v = true →
        v = d.default_ ∨ ∃ e₀ ∈ s.1.pool, e₀.descr.name = d.name ∧ v = e₀.value := by
  have hwf := reachable_wellFormed h
  have hsize := area.le_size
  have hmax := hwf.registered.atMost
  have hmax' := hds.atMost
  rw [length_descrs] at hmax
  have hcontent := configSave_content hl hmax hsave
  simp only [configParamsMax] at hmax hmax'
  have hlen : (image s.1).length = offsetValues + 4 * s.1.pool.length := length_image
  simp only [offsetValues] at hlen
  have hstarted : (started ds).pool.length = ds.length := by
    rw [← length_descrs, descrs_started]
  have hboot := boot_flash area hw f' hds
  rw [hcontent] at hboot
  set content := image s.1 ++ List.replicate (area.size - (image s.1).length) 0xFF with hdef
  -- what the header of the content says
  have hhash : wordAt content offsetLayoutHash = (started ds).layoutHash ↔
      layoutHashOf (ds.map ConfigParam.name) = layoutHashOf (s.1.descrs.map ConfigParam.name) := by
    rw [hdef, wordAt_image_hash, hwf.hash]
    exact eq_comm
  have hcrc : CrcMatches content (started ds).pool.length ↔
      crc32 (wordsBytes (readBack s.1.values ds.length)) = crc32 (wordsBytes s.1.values) := by
    rw [CrcMatches, hstarted, hdef, wordAt_image_crc, map_storedValue]
    simp only [offsetValues]
    omega
  constructor
  · rintro ⟨c', res, hboot', hsame⟩
    have hsame' := hboot.symm.trans hboot'
    obtain ⟨rfl, -⟩ := Prod.mk.inj (Except.ok.inj (Prod.mk.inj hsame').2)
    by_cases h1 : layoutHashOf (ds.map ConfigParam.name)
        = layoutHashOf (s.1.descrs.map ConfigParam.name)
    swap
    · exact Or.inl h1
    by_cases h2 : crc32 (wordsBytes (readBack s.1.values ds.length))
        = crc32 (wordsBytes s.1.values)
    swap
    · exact Or.inr (Or.inl h2)
    right
    right
    intro i d v hd hv hvalid
    have hget := getElem?_restore (hhash.mpr h1) (hcrc.mpr h2) (c := started ds)
      (by rw [descrs_started, hd])
    rw [hdef, storedValue_image _ hv, if_pos hvalid] at hget
    exact hsame _ (List.mem_of_getElem? hget)
  · intro hcond
    refine ⟨_, _, hboot, ?_⟩
    intro e he
    obtain ⟨i, hi⟩ := List.mem_iff_getElem?.mp he
    have hd : (started ds).descrs[i]? = some e.descr := by
      have hmap := congrArg (Option.map Entry.descr) hi
      rwa [← List.getElem?_map, ← descrs, descrs_restore] at hmap
    rcases restore_cases content hd with hdefault | ⟨h1, h2, hvalid, hvalue⟩
    · exact Or.inl (congrArg Entry.value (Option.some.inj (hi.symm.trans hdefault)))
    · have hev : e.value = storedValue content i :=
        congrArg Entry.value (Option.some.inj (hi.symm.trans hvalue))
      rcases hcond with hne | hne | hall
      · exact absurd (hhash.mp h1) hne
      · exact absurd (hcrc.mp h2) hne
      · rw [descrs_started] at hd
        have hi' : i < ds.length := (List.getElem?_eq_some_iff.mp hd).1
        obtain ⟨v, hv, hword⟩ := exists_value_of_isValid hvalid
          (by simp only [offsetValues]; omega)
        rw [← hdef] at hword
        rw [hword] at hvalid hev
        rw [hev]
        exact hall i e.descr v hd hv hvalid

/-- The same parameter again: it gets what was saved. -/
theorem restore_same_name_one_param : ∃ c f f' c' res, c.values = [0x40000000] ∧
    configSave flashStorage c f = (f', .ok 0) ∧
    boot flashStorage c.descrs f' = (f', .ok (c', res)) ∧ SameName c c' := by
  obtain ⟨c, f, f', hvalues, hsave, hr⟩ := oneParamSet_saved
  obtain ⟨c', res, hboot, hsame⟩ := (restore_same_name_iff hardware (.stm32f1 2048)
    (Fpec.lawful_stm32f1 2048) hr hsave c.descrs (reachable_wellFormed hr).registered).mpr
      (Or.inr (Or.inr fun i d v hd hv _ =>
        Or.inr ⟨_, List.mem_of_getElem? (getElem?_pool hd hv), rfl, rfl⟩))
  exact ⟨c, f, f', c', res, hvalues, hsave, hboot, hsame⟩

/-- Parameters "ab" and "c", the first of them set to 2. -/
def splitNames : List Request :=
  [.register (sampleParam [97, 98] (by decide)), .register (sampleParam [99] (by decide)), .init,
    .set ⟨[97, 98], by decide⟩ 0x40000000]

/-- Parameters "a" and "bc". -/
def otherNames : List ConfigParam :=
  [sampleParam [97] nul_notMem_a, sampleParam [98, 99] (by decide)]

theorem registered_otherNames : Registered otherNames where
  defaults := by decide +kernel
  distinct := by decide
  atMost := by decide

/-- What was saved under "ab" is restored under "a". -/
theorem restore_not_same_name :
    ¬∀ (area : ConfigStorageBackend) (hw : Fpec), hw.Lawful → ∀ (s : Config × Flash),
      (machine (area.storage hw)).Reachable s → (∀ d ∈ s.1.descrs, d.name.chars ≠ []) →
      ∀ f', configSave (area.storage hw) s.1 s.2 = (f', .ok 0) →
      ∀ ds, Registered ds → (∀ d ∈ ds, d.name.chars ≠ []) →
      ∀ f'' c' res, boot (area.storage hw) ds f' = (f'', .ok (c', res)) → SameName s.1 c' := by
  intro h
  have hrun : Call.ReturnsWith (performAll flashStorage splitNames {} blankFlash).2
      (fun c => (∀ d ∈ c.descrs, d.name.chars ≠ []) ∧
        Call.ReturnsWith (configSave flashStorage c
          (performAll flashStorage splitNames {} blankFlash).1).2 (fun r => r = 0) ∧
        Call.ReturnsWith (boot flashStorage otherNames (configSave flashStorage c
          (performAll flashStorage splitNames {} blankFlash).1).1).2
          (fun r => ¬SameName c r.1)) := by
    decide +kernel
  obtain ⟨c, ⟨hnames, ⟨r, hsave, rfl⟩, ⟨c', res⟩, hboot, hother⟩, hr⟩ := exists_reachable hrun
  exact hother (h hardware (.stm32f1 2048) (Fpec.lawful_stm32f1 2048) _ hr hnames _
    (Prod.ext rfl hsave) otherNames registered_otherNames (by decide) _ c' res
    (Prod.ext rfl hboot))

end UavcanAdapter.Config
