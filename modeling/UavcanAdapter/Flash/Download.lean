/-
# `Flash.Download` — a download into the flash

The sink over `AppStorageBackend`.  `write_cases` and `write_ops` sum up one
write: what a successful one does to the memory, and which operations any
one issues.  Over whole downloads this gives two results:

  * `area_holds_iff` — when every call of the sink succeeds, the application
    area holds the chunks iff the page erasures on the way were harmless;
    pages are erased when a chunk meets an old cell, whatever was stored
    in front of that cell before;
  * `download_ops_in_area` — whatever the calls return, and whatever the
    controller does, no operation touches a byte outside the area.
-/
import UavcanAdapter.Flash.AppStorage

namespace UavcanAdapter

open Base

/-- Chunk after chunk to one sink, whatever the calls return. -/
def Sink.handleAll {σ : Type} (b : IAppStorageBackend σ) :
    Sink → List Chunk → σ → Call (σ × Sink × List Int)
  | sink, [], s => .ok (s, sink, [])
  | sink, c :: cs, s => do
      let (s, sink, r) ← sink.handleNextDataChunk b c s
      let (s, sink, rs) ← Sink.handleAll b sink cs s
      return (s, sink, r :: rs)

/-- The flash after chunk upon chunk was handed to one sink.  When a call
does not return, it is the flash its write leaves. -/
def Sink.deliver (t : Target) : Sink → List Chunk → Flash → Flash
  | _, [], f => f
  | sink, c :: cs, f =>
      match sink.handleNextDataChunk (appStorageBackend t) c f with
      | .ok (f, sink, _) => Sink.deliver t sink cs f
      | .error _ => (AppStorageBackend.write t sink.offset c f).1

variable {t : Target} {f f' : Flash} {c : Chunk}

/-! ## One write -/

namespace AppStorageBackend

/-- A write that succeeds has erased and programmed as much as fits, or
there was nothing left of the area. -/
theorem write_cases {offset : Nat} {res : Int} (ho : offset < 2 ^ 30) (hs : c.size < 2 ^ 30)
    (h : write t offset c f = (f', .ok res)) (hres : 0 ≤ res) :
    res = min c.size (t.areaSize - offset) ∧ (offset < t.areaSize → ∃ g,
      FlashWriter.erase t.hw (t.applicationAddress + offset) (min c.size (t.areaSize - offset)) f
        = (g, .ok true) ∧
      FlashWriter.write t.hw (t.applicationAddress + offset) c (min c.size (t.areaSize - offset)) g
        = (f', .ok true)) := by
  rw [write, correct_eq ho hs] at h
  by_cases hend : t.areaSize ≤ offset
  · simp only [if_pos hend, Prod.mk.injEq, Except.ok.injEq] at h
    have h0 : min c.size (t.areaSize - offset) = 0 := by omega
    exact ⟨by rw [h0]; exact h.2.symm, fun hlt => absurd hlt (by omega)⟩
  simp only [if_neg hend] at h
  rcases herase : FlashWriter.erase t.hw (t.applicationAddress + offset)
      (min c.size (t.areaSize - offset)) f with ⟨g, e | ok⟩
  · simp [herase] at h
  rcases hwrite : FlashWriter.write t.hw (t.applicationAddress + offset) c
      (min c.size (t.areaSize - offset)) g with ⟨g', e | ok'⟩
  · cases ok <;> simp [herase, hwrite, errEraseFailed] at h
    omega
  cases ok
  · simp [herase, errEraseFailed] at h
    omega
  cases ok'
  · simp [herase, hwrite, errWriteFailed] at h
    omega
  · simp only [herase, hwrite, if_true, Prod.mk.injEq, Except.ok.injEq] at h
    obtain ⟨rfl, rfl⟩ := h
    exact ⟨toInt_of_lt (by omega), fun _ => ⟨g, rfl, hwrite⟩⟩

/-- A write of any outcome issues operations at addresses in the area. -/
theorem write_ops {offset : Nat} {op : FlashOp} (ho : offset < 2 ^ 30) (hs : c.size < 2 ^ 30)
    (h : op ∈ (write t offset c f).1.ops) :
    op ∈ f.ops ∨ ∃ a, t.applicationAddress ≤ a ∧ a < t.flashEnd ∧
      (op = .erase a ∨ a % 2 = 0 ∧ op = .program a) := by
  have hend := t.flashEnd_eq
  have hlt := t.flashEnd_lt
  rw [write, correct_eq ho hs] at h
  by_cases hout : t.areaSize ≤ offset
  · simp only [if_pos hout] at h
    exact Or.inl h
  simp only [if_neg hout] at h
  have herase : ∀ op ∈ (FlashWriter.erase t.hw (t.applicationAddress + offset)
      (min c.size (t.areaSize - offset)) f).1.ops, op ∈ f.ops ∨
        ∃ a, t.applicationAddress ≤ a ∧ a < t.flashEnd ∧
          (op = .erase a ∨ a % 2 = 0 ∧ op = .program a) := by
    intro op hop
    rcases FlashWriter.erase_ops (by omega) hop with hold | ⟨a, ha, ha', rfl⟩
    · exact Or.inl hold
    · exact Or.inr ⟨a, by omega, by omega, Or.inl rfl⟩
  rcases he : FlashWriter.erase t.hw (t.applicationAddress + offset)
      (min c.size (t.areaSize - offset)) f with ⟨g, e | ok⟩
  · rw [he] at h herase
    exact herase op h
  cases ok
  · rw [he] at h herase
    exact herase op h
  rw [he] at h herase
  have hwrite : op ∈ (FlashWriter.write t.hw (t.applicationAddress + offset) c
      (min c.size (t.areaSize - offset)) g).1.ops := by
    rcases hw : FlashWriter.write t.hw (t.applicationAddress + offset) c
      (min c.size (t.areaSize - offset)) g with ⟨g', e | ok'⟩ <;> simpa only [hw] using h
  rcases FlashWriter.write_ops (by omega) hwrite with hold | ⟨a, ha, ha', heven, rfl⟩
  · exact herase op hold
  · exact Or.inr ⟨a, by omega, by omega, Or.inr ⟨heven, rfl⟩⟩

end AppStorageBackend

theorem appStorageBackend_write {offset : Nat} {res : Int}
    (h : (appStorageBackend t).write f offset c = .ok (f', res)) :
    AppStorageBackend.write t offset c f = (f', .ok res) := by
  simp only [appStorageBackend] at h
  rcases hw : AppStorageBackend.write t offset c f with ⟨g, e | r⟩ <;> rw [hw] at h <;> cases h
  rfl

/-! ## What a successful download leaves in the area -/

section Content

variable {sink sink' : Sink} {r : Int}

/-- A successful call moves the offset past the chunk, and the memory is the
lazily written one, but for the byte behind a chunk of odd length. -/
theorem handle_lazyWrite (hl : t.hw.Lawful) (hs : 1 ≤ c.size ∧ c.size ≤ 256)
    (ho : sink.offset ≤ t.areaSize)
    (h : sink.handleNextDataChunk (appStorageBackend t) c f = .ok (f', sink', r)) (hr : 0 ≤ r) :
    sink'.offset = sink.offset + c.size ∧ sink'.offset ≤ t.areaSize ∧
      ∀ x, x < t.applicationAddress + sink'.offset ∨ c.size % 2 = 0 →
        f'.mem x =
          lazyWrite t.hw.page 0xFF f.mem (t.applicationAddress + sink.offset) c.bytes x := by
  have hend := t.flashEnd_eq
  have hlt := t.flashEnd_lt
  have hsize : toInt c.size = c.size := toInt_of_lt (by omega)
  rcases Sink.handle_cases h with ⟨-, -, -, rfl⟩ | ⟨-, res, hw, hcase⟩
  · simp [errAppImageTooLarge] at hr
  rcases hcase with ⟨-, -, -, rfl⟩ | ⟨hres, rfl, rfl⟩
  · simp [errAppStorageWriteFailure] at hr
  obtain ⟨hmin, hfit⟩ := AppStorageBackend.write_cases (by omega) (by omega)
    (appStorageBackend_write hw) hr
  have hall : min c.size (t.areaSize - sink.offset) = c.size := by omega
  have hoff : wrap32 (sink.offset + c.size) = sink.offset + c.size := wrap32_of_lt (by omega)
  simp only [hoff]
  refine ⟨trivial, by omega, ?_⟩
  obtain ⟨g, herase, hwrite⟩ := hfit (by omega)
  rw [hall] at herase hwrite
  have hg := FlashWriter.erase_mem hl (by omega) herase
  obtain ⟨hdata, hrest⟩ := FlashWriter.write_mem hl (by omega) hwrite
  have hlen : c.bytes.length = c.size := rfl
  intro x hx
  rcases Nat.lt_or_ge x (t.applicationAddress + sink.offset) with hbefore | hge
  · rw [hrest x (Or.inl hbefore), lazyWrite, store_of_lt hbefore, hg, hlen]
  rcases Nat.lt_or_ge x (t.applicationAddress + sink.offset + c.size) with hin | hbehind
  · obtain ⟨i, rfl⟩ : ∃ i, x = t.applicationAddress + sink.offset + i :=
      ⟨x - (t.applicationAddress + sink.offset), by omega⟩
    have hi : i < c.size := by omega
    rw [hdata i hi, lazyWrite, store_add (v := c.byteAt i)]
    rw [Chunk.byteAt_of_lt hi]
    exact List.getElem?_eq_getElem hi
  · rw [hrest x (Or.inr (by omega)), lazyWrite, store_of_ge (by omega), hg, hlen]

/-- A download whose calls all succeed writes its chunks lazily. -/
theorem handleAll_lazyWriteAll (hl : t.hw.Lawful) : ∀ (cs : List Chunk) (sink sink' : Sink)
    (f f' : Flash) (rs : List Int), (∀ c ∈ cs, 1 ≤ c.size ∧ c.size ≤ 256) →
      (∀ c ∈ cs.dropLast, c.size % 2 = 0) → sink.offset ≤ t.areaSize →
      Sink.handleAll (appStorageBackend t) sink cs f = .ok (f', sink', rs) → (∀ r ∈ rs, 0 ≤ r) →
      ∀ x, x < t.applicationAddress + sink.offset + (cs.flatMap Chunk.bytes).length →
        f'.mem x = lazyWriteAll t.hw.page 0xFF f.mem (t.applicationAddress + sink.offset)
          (cs.map Chunk.bytes) x
  | [], _, _, _, _, _, _, _, _, h, _ => by
      cases h
      intro x _
      rfl
  | c :: cs, sink, sink', f, f', rs, hsize, heven, ho, h, hok => by
      obtain ⟨⟨f₁, sink₁, r⟩, hone, h⟩ := Call.bind_eq_ok.mp h
      obtain ⟨⟨f₂, sink₂, rs'⟩, hrest, h⟩ := Call.bind_eq_ok.mp h
      cases Call.pure_eq_ok.mp h
      obtain ⟨hoff, hle, hmem⟩ := handle_lazyWrite hl (hsize c List.mem_cons_self) ho hone
        (hok r List.mem_cons_self)
      have ih := handleAll_lazyWriteAll hl cs sink₁ sink' f₁ f' rs'
        (fun d hd => hsize d (List.mem_cons_of_mem c hd)) ?_ hle hrest
        (fun r' hr' => hok r' (List.mem_cons_of_mem r hr'))
      swap
      · intro d hd
        cases cs with
        | nil => cases hd
        | cons e cs => exact heven d (by simp [hd])
      intro x hx
      have haddr : t.applicationAddress + sink₁.offset
          = t.applicationAddress + sink.offset + c.bytes.length := by
        rw [hoff]
        simp only [Chunk.size]
        omega
      rw [List.flatMap_cons, List.length_append] at hx
      rw [List.map_cons, lazyWriteAll]
      cases cs with
      | nil =>
          simp only [List.flatMap_nil, List.length_nil] at hx
          rw [ih x (by simp; omega)]
          simp only [List.map_nil, lazyWriteAll]
          exact hmem x (Or.inl (by omega))
      | cons d cs =>
          -- an even chunk leaves exactly the lazily written memory behind
          have hfun : f₁.mem = lazyWrite t.hw.page 0xFF f.mem
              (t.applicationAddress + sink.offset) c.bytes := by
            funext y
            exact hmem y (Or.inr (heven c (by simp)))
          rw [ih x (by omega), hfun, haddr]

end Content

/-- After a download whose calls all succeed the application area holds the
image iff no page erasure on the way hit anything but blanks of it. -/
theorem area_holds_iff (t : Target) (hl : t.hw.Lawful) (max : UInt32) (cs : List Chunk)
    (hsize : ∀ c ∈ cs, 1 ≤ c.size ∧ c.size ≤ 256) (heven : ∀ c ∈ cs.dropLast, c.size % 2 = 0)
    (f f' : Flash) (sink' : Sink) (rs : List Int)
    (hrun : Sink.handleAll (appStorageBackend t) { maxImageSize := max.toNat } cs f
      = .ok (f', sink', rs))
    (hok : ∀ r ∈ rs, 0 ≤ r) :
    HoldsAt f'.mem t.applicationAddress (cs.flatMap Chunk.bytes) ↔
      Harmless t.hw.page 0xFF f.mem t.applicationAddress (cs.map Chunk.bytes) := by
  have hmem := handleAll_lazyWriteAll hl cs _ sink' f f' rs hsize heven (Nat.zero_le _) hrun hok
  have hflat : cs.flatMap Chunk.bytes = (cs.map Chunk.bytes).flatten := by
    rw [List.flatMap_def]
  rw [← holdsAt_lazyWriteAll_iff, ← hflat]
  constructor
  · intro h i v hv
    have hi := (List.getElem?_eq_some_iff.mp hv).1
    rw [← h i v hv, hmem _ (by simp only [Nat.add_zero]; omega)]
    rfl
  · intro h i v hv
    have hi := (List.getElem?_eq_some_iff.mp hv).1
    rw [← h i v hv, hmem _ (by simp only [Nat.add_zero]; omega)]
    rfl

/-- Two chunks of two bytes. -/
def twoChunks : List Chunk := [{ bytes := [1, 2] }, { bytes := [3, 4] }]

/-- On an erased flash both calls succeed, and the result applies. -/
theorem area_holds_iff_erased : ∃ f' sink',
    Sink.handleAll (appStorageBackend .twoPages) { maxImageSize := (1024 : UInt32).toNat } twoChunks
      (Target.twoPages.flashed []) = .ok (f', sink', [2, 2]) ∧
    (HoldsAt f'.mem Target.twoPages.applicationAddress [1, 2, 3, 4] ↔
      Harmless Target.twoPages.hw.page 0xFF (Target.twoPages.flashed []).mem
        Target.twoPages.applicationAddress [[1, 2], [3, 4]]) := by
  have hrun : Call.ReturnsWith (Sink.handleAll (appStorageBackend .twoPages)
      { maxImageSize := (1024 : UInt32).toNat } twoChunks (Target.twoPages.flashed []))
      (fun r => r.2.2 = [2, 2]) := by decide +kernel
  obtain ⟨⟨f', sink', rs⟩, hrun, rfl⟩ := hrun
  exact ⟨f', sink', hrun, area_holds_iff .twoPages (Fpec.lawful_stm32f1 512) 1024 twoChunks
    (by decide) (by decide) _ f' sink' [2, 2] hrun (by decide)⟩

/-- On a flash where only the third byte of the area is in use, storing the
second chunk erases the first. -/
theorem area_not_holds : ¬∀ (t : Target), t.hw.Lawful →
    t.hw.pageSize ∣ t.applicationOffset → ∀ (max : UInt32) (cs : List Chunk),
    (∀ c ∈ cs, 1 ≤ c.size ∧ c.size ≤ 256) → (∀ c ∈ cs.dropLast, c.size % 2 = 0) →
    ∀ (f f' : Flash) (sink' : Sink) (rs : List Int),
      Sink.handleAll (appStorageBackend t) { maxImageSize := max.toNat } cs f
        = .ok (f', sink', rs) →
      (∀ r ∈ rs, 0 ≤ r) → HoldsAt f'.mem t.applicationAddress (cs.flatMap Chunk.bytes) := by
  intro h
  have hrun : Call.ReturnsWith (Sink.handleAll (appStorageBackend .twoPages)
      { maxImageSize := (1024 : UInt32).toNat } twoChunks
      (Target.twoPages.flashed [0xFF, 0xFF, 0]))
      (fun r => r.2.2 = [2, 2] ∧ r.1.mem Target.twoPages.applicationAddress = 0xFF) := by
    decide +kernel
  obtain ⟨⟨f', sink', rs⟩, hrun, rfl, hmem⟩ := hrun
  have hholds := h .twoPages (Fpec.lawful_stm32f1 512) (by decide) 1024 twoChunks (by decide)
    (by decide) _ f' sink' [2, 2] hrun (by decide) 0 1 rfl
  rw [Nat.add_zero, hmem] at hholds
  cases hholds

/-! ## Where a download operates -/

/-- The bytes an operation can change. -/
def FlashOp.touches (hw : Fpec) : FlashOp → Nat → Prop
  | .erase a, x => hw.page x = hw.page a
  | .program a, x => x = a ∨ x = a + 1

/-- An operation at an address in the area touches the area only: the area
consists of whole pages and of whole halfwords. -/
theorem touches_in_area {op : FlashOp} {a x : Nat} (hoff : t.hw.pageSize ∣ t.applicationOffset)
    (hsize : t.hw.pageSize ∣ t.getFlashSize) (ha : t.applicationAddress ≤ a) (ha' : a < t.flashEnd)
    (hop : op = .erase a ∨ a % 2 = 0 ∧ op = .program a) (hx : op.touches t.hw x) :
    t.applicationAddress ≤ x ∧ x < t.flashEnd := by
  rcases hop with rfl | ⟨heven, rfl⟩
  · simp only [FlashOp.touches, Fpec.page] at hx
    obtain ⟨k, hk⟩ := hoff
    obtain ⟨l, hl⟩ := hsize
    have haddr : (t.applicationAddress : Int) = flashBase + t.hw.pageSize * k := by
      rw [Target.applicationAddress, hk]
      push_cast
      ring
    have hend : (t.flashEnd : Int) = flashBase + t.hw.pageSize * l := by
      rw [Target.flashEnd, hl]
      push_cast
      ring
    have hpos : (0 : Int) < t.hw.pageSize := by
      rcases Nat.eq_zero_or_pos t.hw.pageSize with h0 | hpos
      · rw [h0] at hk hl
        simp only [Target.flashEnd, Target.applicationAddress] at ha ha'
        omega
      · exact_mod_cast hpos
    have hlo : (k : Int) ≤ ((a : Int) - flashBase) / t.hw.pageSize :=
      (Int.le_ediv_iff_mul_le hpos).mpr (by rw [Int.mul_comm]; omega)
    have hhi : ((a : Int) - flashBase) / t.hw.pageSize < l :=
      (Int.ediv_lt_iff_lt_mul hpos).mpr (by rw [Int.mul_comm]; omega)
    rw [← hx] at hlo hhi
    have hlo' := (Int.le_ediv_iff_mul_le hpos).mp hlo
    have hhi' := (Int.ediv_lt_iff_lt_mul hpos).mp hhi
    rw [Int.mul_comm] at hlo' hhi'
    omega
  · have hlen : t.flashEnd % 2 = 0 := by
      simp only [Target.flashEnd, Target.getFlashSize, flashBase]
      omega
    rcases hx with rfl | rfl <;> omega

/-- Whatever happens in a download, its operations are at addresses in the
area. -/
theorem deliver_ops : ∀ (cs : List Chunk) (sink : Sink) (f : Flash) {op : FlashOp},
    (∀ c ∈ cs, c.size ≤ 256) → sink.maxImageSize = t.getFlashSize →
      sink.offset ≤ sink.maxImageSize → op ∈ (Sink.deliver t sink cs f).ops →
      op ∈ f.ops ∨ ∃ a, t.applicationAddress ≤ a ∧ a < t.flashEnd ∧
        (op = .erase a ∨ a % 2 = 0 ∧ op = .program a)
  | [], _, _, _, _, _, _, h => Or.inl h
  | c :: cs, sink, f, op, hcs, hmax, ho, h => by
      have hlt := t.getFlashSize_lt
      have hc := hcs c List.mem_cons_self
      have hwrite : ∀ op' : FlashOp, op' ∈ (AppStorageBackend.write t sink.offset c f).1.ops →
          op' ∈ f.ops ∨ ∃ a, t.applicationAddress ≤ a ∧ a < t.flashEnd ∧
            (op' = .erase a ∨ a % 2 = 0 ∧ op' = .program a) :=
        fun op' hop' => AppStorageBackend.write_ops (by omega) (by omega) hop'
      rw [Sink.deliver] at h
      split at h
      · rename_i f₁ sink₁ r hone
        rcases deliver_ops cs sink₁ f₁ (fun d hd => hcs d (List.mem_cons_of_mem c hd))
          (by rw [Sink.handle_maxImageSize hone, hmax]) (Sink.handle_offset_le hone ho) h with
          hold | hnew
        · rcases Sink.handle_cases hone with ⟨-, rfl, -⟩ | ⟨-, res, hw, -⟩
          · exact Or.inl hold
          · refine hwrite op ?_
            rw [appStorageBackend_write hw]
            exact hold
        · exact Or.inr hnew
      · exact hwrite op h

/-- No download changes a byte outside the application area. -/
theorem download_ops_in_area (t : Target) (hoff : t.hw.pageSize ∣ t.applicationOffset)
    (hsize : t.hw.pageSize ∣ t.getFlashSize) (cs : List Chunk)
    (hcs : ∀ c ∈ cs, 1 ≤ c.size ∧ c.size ≤ 256) (mem : Nat → UInt8) :
    ∀ op ∈ (Sink.deliver t { maxImageSize := t.getFlashSize } cs { mem }).ops,
      ∀ x, op.touches t.hw x →
        flashBase + t.applicationOffset ≤ x ∧ x < flashBase + t.getFlashSize := by
  intro op hop x hx
  rcases deliver_ops cs _ _ (fun c hc => (hcs c hc).2) rfl (Nat.zero_le _) hop with hold | hnew
  · cases hold
  · obtain ⟨a, ha, ha', hcase⟩ := hnew
    exact touches_in_area hoff hsize ha ha' hcase hx

/-- Two chunks on a flash of zeros: there are operations, and they stay in
the second page. -/
theorem download_ops_in_area_twoPages :
    (Sink.deliver .twoPages { maxImageSize := 1024 } [{ bytes := [1, 2] }, { bytes := [3] }]
        { mem := fun _ => 0 }).ops.length = 3 ∧
    ∀ op ∈ (Sink.deliver .twoPages { maxImageSize := 1024 }
        [{ bytes := [1, 2] }, { bytes := [3] }] { mem := fun _ => 0 }).ops,
      ∀ x, op.touches Target.twoPages.hw x → flashBase + 512 ≤ x ∧ x < flashBase + 1024 :=
  ⟨by decide +kernel, download_ops_in_area .twoPages (by decide) (by decide)
    [{ bytes := [1, 2] }, { bytes := [3] }] (by decide) (fun _ => 0)⟩

end UavcanAdapter
