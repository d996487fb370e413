/-
# `Config.Restore` — what is saved and what comes back

`image` is the byte string `configSave` writes.  `restore_cases` says what
`init` can make of any content: a parameter has its default, or the valid
word in its place.  `boot_of_holds` reduces a whole boot to `restore`.
-/
import UavcanAdapter.Config.Pool

namespace UavcanAdapter.Config

open Base

/-! ## Booting -/

/-- The configuration after the parameters were registered in this order. -/
def registered (ds : List ConfigParam) : Config where
  pool := ds.map fun d => { descr := d, value := d.default_ }
  layoutHash := layoutHashOf (ds.map ConfigParam.name)

/-- The configuration from the point on where `init` has frozen it. -/
def started (ds : List ConfigParam) : Config := { registered ds with frozen := true }

section Boot

variable {ds es : List ConfigParam} {d : ConfigParam}

@[simp] theorem descrs_registered : (registered ds).descrs = ds := by
  rw [registered, descrs, List.map_map]
  exact List.map_id ds

@[simp] theorem descrs_started : (started ds).descrs = ds := descrs_registered

theorem Registered.of_append (h : Registered (ds ++ es)) : Registered ds where
  defaults d hd := h.defaults d (List.mem_append_left es hd)
  distinct := by
    have hnodup := h.distinct
    rw [List.map_append] at hnodup
    exact (List.nodup_append.mp hnodup).1
  atMost := by
    have hlen := h.atMost
    rw [List.length_append] at hlen
    omega

theorem indexByName_of_not_mem {c : Config} {name : CString}
    (h : name ∉ c.descrs.map ConfigParam.name) : c.indexByName name = none := by
  apply List.findFinIdx?_eq_none_iff.mpr
  intro e he heq
  apply h
  rw [← of_decide_eq_true heq]
  exact List.mem_map_of_mem (mem_descrs he)

theorem configRegisterParam_registered (h : Registered (ds ++ [d])) :
    (registered ds).configRegisterParam d = .ok (registered (ds ++ [d])) := by
  have hlen := h.atMost
  have hnodup := h.distinct
  rw [List.length_append, List.length_singleton] at hlen
  rw [List.map_append, List.map_singleton] at hnodup
  have hname : d.name ∉ (registered ds).descrs.map ConfigParam.name := by
    rw [descrs_registered]
    intro hmem
    exact (List.nodup_append.mp hnodup).2.2 _ hmem _ (List.mem_singleton_self _) rfl
  have hroom : (registered ds).pool.length < configParamsMax := by
    simp only [registered, List.length_map]
    omega
  have hfrozen : (registered ds).frozen = false := rfl
  rw [configRegisterParam, Call.assert_of_true hfrozen, Call.ok_bind, Call.assert_of_true hroom,
    Call.ok_bind, Call.assert_of_true (h.defaults d (by simp)), Call.ok_bind,
    Call.assert_of_true (indexByName_of_not_mem hname), Call.ok_bind]
  simp only [registered, List.map_append, List.map_singleton, layoutHashOf_append_singleton]
  rfl

theorem foldlM_configRegisterParam : ∀ (es ds : List ConfigParam), Registered (ds ++ es) →
    es.foldlM configRegisterParam (registered ds) = .ok (registered (ds ++ es))
  | [], ds, _ => by simp [pure, Except.pure]
  | e :: es, ds, h => by
      have happend : ds ++ e :: es = ds ++ [e] ++ es := by simp
      rw [happend] at h ⊢
      rw [List.foldlM_cons, configRegisterParam_registered h.of_append, Call.ok_bind,
        foldlM_configRegisterParam es (ds ++ [e]) h]

/-- Over a storage that can be read, a boot registers the parameters and
restores the content. -/
theorem boot_of_holds {σ : Type} {b : IStorageBackend σ} {s : σ} {content : List UInt8}
    (h : Registered ds) (hs : b.Holds s content)
    (hfits : offsetValues + 4 * ds.length ≤ content.length) :
    boot b ds s = (s, .ok (restore (started ds) content)) := by
  have hreg : Prog.lift (ds.foldlM configRegisterParam {}) s = (s, .ok (registered ds)) := by
    have hfold := foldlM_configRegisterParam ds [] h
    exact congrArg (Prod.mk s) hfold
  rw [boot, Prog.bind_of_ok hreg]
  have hlen : (registered ds).pool.length = ds.length := by simp [registered]
  exact init_of_holds hs rfl (by rw [hlen]; exact h.atMost) (by rw [hlen]; exact hfits)

end Boot

/-! ## What `init` makes of a content -/

section Restore

variable {c : Config} {content : List UInt8} {i : Nat} {d : ConfigParam}

theorem getElem?_pool {v : UInt32} (hd : c.descrs[i]? = some d) (hv : c.values[i]? = some v) :
    c.pool[i]? = some { descr := d, value := v } := by
  simp only [descrs, values, List.getElem?_map, Option.map_eq_some_iff] at hd hv
  obtain ⟨e, he, rfl⟩ := hd
  obtain ⟨e', he', rfl⟩ := hv
  obtain rfl := Option.some.inj (he.symm.trans he')
  exact he

theorem getElem?_reinitializeDefaults (hd : c.descrs[i]? = some d) :
    c.reinitializeDefaults.pool[i]? = some { descr := d, value := d.default_ } := by
  apply getElem?_pool
  · rw [descrs_reinitializeDefaults, hd]
  · rw [values_reinitializeDefaults, List.getElem?_map, hd]
    rfl

theorem getElem?_revalidate {v : UInt32} (hd : c.descrs[i]? = some d)
    (hv : c.values[i]? = some v) : c.revalidate.pool[i]? =
      some { descr := d, value := if isValid d v = true then v else d.default_ } := by
  rw [revalidate, List.getElem?_map, getElem?_pool hd hv, Option.map_some]
  split <;> rfl

/-- The word in the place of the `i`-th value. -/
def storedValue (content : List UInt8) (i : Nat) : UInt32 := wordAt content (offsetValues + 4 * i)

/-- The CRC is right for the first `n` words of a content. -/
def CrcMatches (content : List UInt8) (n : Nat) : Prop :=
  crc32 (wordsBytes ((List.range n).map (storedValue content))) = wordAt content offsetCrc

theorem words_slice (content : List UInt8) (n : Nat) :
    words n (slice content offsetValues (4 * n)) = (List.range n).map (storedValue content) := by
  apply List.map_congr_left
  intro i hi
  have hlt := List.mem_range.mp hi
  rw [storedValue, wordAt, wordAt, slice_slice (by omega)]

theorem restore_of_matches (hhash : wordAt content offsetLayoutHash = c.layoutHash)
    (hcrc : CrcMatches content c.pool.length) :
    (restore c content).1 =
      (c.withValues ((List.range c.pool.length).map (storedValue content))).revalidate := by
  rw [restore, if_pos hhash]
  simp only [words_slice]
  rw [CrcMatches] at hcrc
  rw [if_pos hcrc]

theorem restore_of_not_matches
    (h : ¬(wordAt content offsetLayoutHash = c.layoutHash ∧ CrcMatches content c.pool.length)) :
    (restore c content).1 = c.reinitializeDefaults := by
  rw [restore]
  split
  · rename_i hhash
    rw [CrcMatches] at h
    simp only [words_slice]
    rw [if_neg fun hcrc => h ⟨hhash, hcrc⟩]
  · rfl

@[simp] theorem descrs_restore : (restore c content).1.descrs = c.descrs := by
  by_cases h : wordAt content offsetLayoutHash = c.layoutHash ∧ CrcMatches content c.pool.length
  · rw [restore_of_matches h.1 h.2, descrs_revalidate]
    exact (pool_withValues (by simp)).1
  · rw [restore_of_not_matches h, descrs_reinitializeDefaults]

/-- Where hash and CRC are right, a parameter comes back with the word in
its place if that is valid. -/
theorem getElem?_restore (hhash : wordAt content offsetLayoutHash = c.layoutHash)
    (hcrc : CrcMatches content c.pool.length) (hd : c.descrs[i]? = some d) :
    (restore c content).1.pool[i]? = some
      { descr := d
        value := if isValid d (storedValue content i) = true then storedValue content i
          else d.default_ } := by
  have hlen : ((List.range c.pool.length).map (storedValue content)).length = c.pool.length := by
    simp
  obtain ⟨hdescrs, hvalues⟩ := pool_withValues hlen
  have hi : i < c.pool.length := by
    rw [← length_descrs]
    exact (List.getElem?_eq_some_iff.mp hd).1
  rw [restore_of_matches hhash hcrc]
  apply getElem?_revalidate
  · rw [hdescrs, hd]
  · rw [hvalues, List.getElem?_map, List.getElem?_range hi, Option.map_some]

/-- A parameter comes back with its default, or with the valid word in its
place. -/
theorem restore_cases (content : List UInt8) (hd : c.descrs[i]? = some d) :
    (restore c content).1.pool[i]? = some { descr := d, value := d.default_ } ∨
      (wordAt content offsetLayoutHash = c.layoutHash ∧ CrcMatches content c.pool.length ∧
        isValid d (storedValue content i) = true ∧
        (restore c content).1.pool[i]? = some { descr := d, value := storedValue content i }) := by
  by_cases h : wordAt content offsetLayoutHash = c.layoutHash ∧ CrcMatches content c.pool.length
  · rw [getElem?_restore h.1 h.2 hd]
    split
    · rename_i hvalid
      exact Or.inr ⟨h.1, h.2, hvalid, rfl⟩
    · exact Or.inl rfl
  · rw [restore_of_not_matches h]
    exact Or.inl (getElem?_reinitializeDefaults hd)

end Restore

/-! ## The image -/

/-- What `configSave` writes. -/
def image (c : Config) : List UInt8 :=
  wordBytes c.layoutHash ++ wordBytes (crc32 (wordsBytes c.values)) ++ wordsBytes c.values

section Image

variable {c : Config} {rest : List UInt8}

@[simp] theorem length_image : (image c).length = offsetValues + 4 * c.pool.length := by
  simp only [image, List.length_append, length_wordBytes, length_wordsBytes, length_values,
    offsetValues]

theorem wordAt_image_hash : wordAt (image c ++ rest) offsetLayoutHash = c.layoutHash := by
  apply wordAt_of_slice
  rw [offsetLayoutHash, slice_zero, image, List.append_assoc, List.append_assoc]
  exact List.take_left' (length_wordBytes _)

theorem wordAt_image_crc :
    wordAt (image c ++ rest) offsetCrc = crc32 (wordsBytes c.values) := by
  apply wordAt_of_slice
  have hslice := slice_append_append (x := wordBytes c.layoutHash)
    (y := wordBytes (crc32 (wordsBytes c.values))) (z := wordsBytes c.values ++ rest)
  rw [length_wordBytes, length_wordBytes] at hslice
  rw [image, List.append_assoc _ _ rest]
  exact hslice

theorem storedValue_image (rest : List UInt8) {i : Nat} {v : UInt32}
    (h : c.values[i]? = some v) :
    storedValue (image c ++ rest) i = v := by
  have hi : i < c.values.length := (List.getElem?_eq_some_iff.mp h).1
  have hhead : (wordBytes c.layoutHash ++ wordBytes (crc32 (wordsBytes c.values))).length
      = offsetValues := by simp [offsetValues]
  apply wordAt_of_slice
  rw [image, List.append_assoc, slice, List.drop_append, List.drop_eq_nil_of_le (by omega),
    List.nil_append, hhead, Nat.add_sub_cancel_left, ← slice,
    slice_append_left (by rw [length_wordsBytes]; omega), slice_wordsBytes h]

/-- The words of an image are the values. -/
theorem map_storedValue_image :
    (List.range c.pool.length).map (storedValue (image c ++ rest)) = c.values := by
  apply List.ext_getElem?
  intro i
  rcases Nat.lt_or_ge i c.pool.length with hi | hi
  · have hv := List.getElem?_eq_getElem (l := c.values) (by simpa using hi)
    rw [hv, List.getElem?_map, List.getElem?_range hi, Option.map_some, storedValue_image rest hv]
  · rw [List.getElem?_eq_none (by simpa using hi), List.getElem?_eq_none (by simpa using hi)]

theorem length_pool_started (c : Config) : (started c.descrs).pool.length = c.pool.length := by
  rw [← length_descrs, descrs_started, length_descrs]

/-- Saved values come back. -/
theorem restore_image (hw : WellFormed c) :
    (restore (started c.descrs) (image c ++ rest)).1.pool = c.pool := by
  have hlen := length_pool_started c
  have hcrc : CrcMatches (image c ++ rest) (started c.descrs).pool.length := by
    rw [CrcMatches, hlen, map_storedValue_image, wordAt_image_crc]
  have hvalues : c.values.length = (started c.descrs).pool.length := by rw [hlen, length_values]
  obtain ⟨hds, hvs⟩ := pool_withValues hvalues
  have hpool : ((started c.descrs).withValues c.values).pool = c.pool :=
    pool_ext (hds.trans descrs_started) hvs
  rw [restore_of_matches (wordAt_image_hash.trans hw.hash) hcrc, hlen, map_storedValue_image,
    revalidate, hpool]
  -- every value that comes back is valid
  exact (List.map_congr_left fun e he => if_pos (hw.valid e he)).trans (List.map_id c.pool)

end Image

/-- From a content without a valid word the defaults come back. -/
theorem restore_of_torn {ds : List ConfigParam} {content : List UInt8}
    (h : ∀ i < ds.length, Torn (storedValue content i)) :
    (restore (started ds) content).1.pool = (started ds).pool := by
  have hdescrs : (restore (started ds) content).1.descrs = ds := by
    rw [descrs_restore, descrs_started]
  apply List.ext_getElem?
  intro i
  rcases Nat.lt_or_ge i ds.length with hi | hi
  · have hget := List.getElem?_eq_getElem hi
    have hd : (started ds).descrs[i]? = some ds[i] := by rw [descrs_started, hget]
    have hstarted : (started ds).pool[i]? = some { descr := ds[i], value := ds[i].default_ } := by
      simp only [started, registered, List.getElem?_map, hget, Option.map_some]
    rcases restore_cases content hd with hdefault | ⟨-, -, hvalid, -⟩
    · rw [hdefault, hstarted]
    · rw [not_isValid_of_torn (h i hi)] at hvalid
      cases hvalid
  · rw [List.getElem?_eq_none, List.getElem?_eq_none]
    · rwa [← length_descrs, descrs_started]
    · rwa [← length_descrs, hdescrs]

/-! ## The calls of `configSave` -/

section Save

variable {σ : Type} {b : IStorageBackend σ} {c : Config} {P A E : σ → Prop}

/-- One call of the storage: `goto flash_error` on a failure. -/
theorem saveStep_triple {x k : Prog σ Int} {R : σ → Prop}
    (hx : Prog.Triple P x (fun r s => if r = 0 then A s else E s) E)
    (hk : Prog.Triple A k (fun r s => if r = 0 then R s else E s) E) :
    Prog.Triple P (x >>= fun r => if r ≠ 0 then saveError r else k)
      (fun r s => if r = 0 then R s else E s) E := by
  refine hx.bind fun r => Prog.Triple.ite ?_ ?_
  · intro hr s hs
    have herror : saveError r s = (s, .ok r) := by
      rw [saveError, Prog.assert_bind hr]
      rfl
    rw [if_neg hr] at hs
    simpa only [herror, if_neg hr] using hs
  · intro hr
    refine hk.mono (fun s hs => ?_) (fun _ _ h => h) (fun _ h => h)
    rwa [if_pos (not_not.mp hr)] at hs

/-- If each call of the storage leaves it filled that much further, or in
`E` when it fails or does not return, `configSave` leaves the image, or
something in `E`. -/
theorem configSave_triple (At : List UInt8 → σ → Prop) (hfrozen : c.frozen = true)
    (herase : Prog.Triple P b.erase (fun r s => if r = 0 then At [] s else E s) E)
    (hwrite : ∀ pre data, pre ++ data <+: image c → pre.length % 2 = 0 → data.length % 2 = 0 →
      Prog.Triple (At pre) (b.write pre.length data)
        (fun r s => if r = 0 then At (pre ++ data) s else E s) E) :
    Prog.Triple P (configSave b c) (fun r s => if r = 0 then At (image c) s else E s) E := by
  have hhash := hwrite [] (wordBytes c.layoutHash)
    ⟨wordBytes (crc32 (wordsBytes c.values)) ++ wordsBytes c.values, by simp [image]⟩ rfl (by simp)
  have hcrc := hwrite (wordBytes c.layoutHash) (wordBytes (crc32 (wordsBytes c.values)))
    ⟨wordsBytes c.values, rfl⟩ (by simp) (by simp)
  have hvalues := hwrite (wordBytes c.layoutHash ++ wordBytes (crc32 (wordsBytes c.values)))
    (wordsBytes c.values) (List.prefix_refl _) (by simp) (by simp; omega)
  have hdone : Prog.Triple (At (image c)) (pure 0)
      (fun r s => if r = 0 then At (image c) s else E s) E := by
    intro s hs
    exact (if_pos rfl).mpr hs
  rw [List.nil_append] at hhash
  rw [length_wordBytes] at hcrc
  rw [List.length_append, length_wordBytes, length_wordBytes] at hvalues
  rw [configSave, Prog.assert_bind hfrozen]
  exact saveStep_triple herase (saveStep_triple hhash (saveStep_triple hcrc
    (saveStep_triple hvalues hdone)))

end Save

end UavcanAdapter.Config
