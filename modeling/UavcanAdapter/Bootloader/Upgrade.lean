/-
# `Bootloader.Upgrade` — `upgradeApp` from entry to exit

The stages of `upgradeApp` put together: preparation, the download, and
finalization.  The downloader is not restricted: it is a list of events, in
which it calls the sink with any chunk, or it or another thread calls a
member function of the controller, and it returns any result.  A downloader
that decides by what the sink returned is one of these lists in each run.

`CleanExit` says how a call that was not refused ends, and
`upgradeApp_cleanExit` that every one does.
-/
import UavcanAdapter.Bootloader.Control

namespace UavcanAdapter

open Base

namespace Bootloader

variable {σ : Type}

/-! ## The whole function -/

/-- What happens while the download runs. -/
inductive DownloadEvent
  /-- a call of the sink -/
  | chunk (c : Chunk)
  | getState (ticks : Nat)
  | cancelBoot
  | requestBoot
  /-- another call of `upgradeApp`, up to its download -/
  | upgradeApp (ticks : Nat)

/-- A call of the sink: what it issued to the backend, and what it returned. -/
structure SinkCall where
  issued : List BackendCall
  result : Int
deriving DecidableEq

/-- All that calls of the sink issued. -/
def issuedBy (xs : List SinkCall) : List BackendCall := xs.flatMap SinkCall.issued

/-- The calls up to the first that returned an error. -/
def untilError : List SinkCall → List SinkCall
  | [] => []
  | x :: xs => if x.result < 0 then [x] else x :: untilError xs

/-- The end of an `upgradeApp` call, with the history of its sink. -/
structure Outcome (σ : Type) where
  bl : Bootloader σ
  sinkCalls : List SinkCall
  result : Int

section Source

variable (b : IAppStorageBackend σ)

/-- The download stage: the events in order. -/
def download : List DownloadEvent → Sink → Bootloader σ → Call (Bootloader σ × List SinkCall)
  | [], _, bl => .ok (bl, [])
  | .chunk c :: es, sink, bl => do
      let (bl', sink', r) ← sink.handleNextDataChunk (traced b) c bl
      let (bl'', xs) ← download es sink' bl'
      return (bl'', { issued := (bl'.calls.drop bl.calls.length).map Prod.snd, result := r } :: xs)
  | .getState ticks :: es, sink, bl => download es sink (bl.getState ticks).1
  | .cancelBoot :: es, sink, bl => download es sink bl.cancelBoot
  | .requestBoot :: es, sink, bl => download es sink bl.requestBoot
  | .upgradeApp ticks :: es, sink, bl => do
      let (bl', _) ← bl.prepare b ticks
      download es sink bl'

/-- `upgradeApp`: the stages enter at these times, the download does `es` and
returns `res`. -/
def upgradeApp (prepared finalized : Nat) (es : List DownloadEvent) (res : Int)
    (bl : Bootloader σ) : Call (Outcome σ) := do
  match ← bl.prepare b prepared with
  | (bl, some r) => return { bl, sinkCalls := [], result := r }
  | (bl, none) =>
      let (bl, sinkCalls) ← download b es bl.makeSink bl
      let (bl, result) ← bl.finalize b finalized res
      return { bl, sinkCalls, result }

end Source

/-! ## The download -/

/-- Writes one behind the other from an offset on, none of which begins or
ends behind `max`. -/
def Consecutive (max : Nat) : Nat → List BackendCall → Prop
  | _, [] => True
  | offset, .write o c _ :: calls =>
      o = offset ∧ offset ≤ max ∧ wrap32 (offset + c.size) ≤ max ∧
        Consecutive max (wrap32 (offset + c.size)) calls
  | _, _ :: _ => False

variable {b : IAppStorageBackend σ} {bl bl' : Bootloader σ} {sink sink' : Sink} {c : Chunk}
  {ticks : Nat} {r : Int}

theorem getState_of_upgrading (h : bl.state = .appUpgradeInProgress) :
    (bl.getState ticks).1 = bl := by
  rcases getState_cases bl ticks with ⟨hst, -, -⟩ | ⟨-, heq⟩
  · rw [h] at hst
    cases hst
  · rw [heq]

theorem cancelBoot_of_upgrading (h : bl.state = .appUpgradeInProgress) : bl.cancelBoot = bl := by
  rw [cancelBoot, h]

theorem requestBoot_of_upgrading (h : bl.state = .appUpgradeInProgress) : bl.requestBoot = bl := by
  rw [requestBoot, h]

/-- A call of the sink issues no write and fails, or issues one at the running
offset; if it does not fail, the offset moves behind it. -/
theorem sink_traced_cases (h : sink.handleNextDataChunk (traced b) c bl = .ok (bl', sink', r)) :
    sink'.maxImageSize = sink.maxImageSize ∧ bl'.state = bl.state ∧
      bl'.maxApplicationImageSize = bl.maxApplicationImageSize ∧
      ((r < 0 ∧ bl'.calls = bl.calls) ∨
        ∃ res, bl'.calls = bl.calls ++ [(bl.state, .write sink.offset c res)] ∧
          wrap32 (sink.offset + c.size) ≤ sink.maxImageSize ∧
          (0 ≤ r → sink'.offset = wrap32 (sink.offset + c.size))) := by
  refine ⟨Sink.handle_maxImageSize h, ?_⟩
  rcases Sink.handle_cases h with ⟨-, rfl, -, rfl⟩ | ⟨hfit, res, hw, hres⟩
  · exact ⟨rfl, rfl, Or.inl ⟨by decide, rfl⟩⟩
  · obtain ⟨s, -, rfl⟩ := traced_write hw
    refine ⟨rfl, rfl, Or.inr ⟨res, rfl, hfit, fun hr => ?_⟩⟩
    rcases hres with ⟨-, -, -, rfl⟩ | ⟨-, rfl, -⟩
    · exact absurd hr (by decide)
    · rfl

/-- What a download leaves behind. -/
structure Downloaded (bl bl' : Bootloader σ) (sink : Sink) (xs : List SinkCall) : Prop where
  state : bl'.state = .appUpgradeInProgress
  maxApplicationImageSize : bl'.maxApplicationImageSize = bl.maxApplicationImageSize
  calls : ∃ new, bl'.calls = bl.calls ++ new ∧ new.map Prod.snd = issuedBy xs
  writes : ∀ w ∈ issuedBy xs, w.isWrite = true
  consecutive : Consecutive sink.maxImageSize sink.offset (issuedBy (untilError xs))

/-- A call of the sink in front of a download. -/
theorem Downloaded.cons {bl₁ : Bootloader σ} {xs : List SinkCall}
    (h : sink.handleNextDataChunk (traced b) c bl = .ok (bl₁, sink', r))
    (hle : sink.offset ≤ sink.maxImageSize) (hxs : Downloaded bl₁ bl' sink' xs) :
    Downloaded bl bl' sink
      ({ issued := (bl₁.calls.drop bl.calls.length).map Prod.snd, result := r } :: xs) := by
  obtain ⟨hmax, -, hsize, hcases⟩ := sink_traced_cases h
  obtain ⟨new, hnew, hissued⟩ := hxs.calls
  rcases hcases with ⟨hneg, hcalls⟩ | ⟨res, hcalls, hfit, hnext⟩
  · have hdrop : bl₁.calls.drop bl.calls.length = [] := by rw [hcalls, List.drop_length]
    rw [hdrop]
    refine ⟨hxs.state, hxs.maxApplicationImageSize.trans hsize, ⟨new, by rw [hnew, hcalls], hissued⟩,
      hxs.writes, ?_⟩
    rw [untilError, if_pos hneg]
    trivial
  · have hdrop : bl₁.calls.drop bl.calls.length = [(bl.state, .write sink.offset c res)] := by
      rw [hcalls, List.drop_left]
    rw [hdrop]
    refine ⟨hxs.state, hxs.maxApplicationImageSize.trans hsize,
      ⟨(bl.state, .write sink.offset c res) :: new, ?_, ?_⟩, ?_, ?_⟩
    · rw [hnew, hcalls, List.append_assoc, List.singleton_append]
    · rw [List.map_cons, hissued]
      rfl
    · exact List.forall_mem_cons.mpr ⟨rfl, hxs.writes⟩
    · by_cases hneg : r < 0
      · rw [untilError, if_pos hneg]
        exact ⟨rfl, hle, hfit, trivial⟩
      · have hrest := hxs.consecutive
        rw [hmax, hnext (by omega)] at hrest
        rw [untilError, if_neg hneg]
        exact ⟨rfl, hle, hfit, hrest⟩

/-- Whatever happens during the download, the controller stays in the upgrade,
and all that goes to the backend are the writes of the sink. -/
theorem downloaded_of_download : ∀ {es : List DownloadEvent} {sink : Sink} {bl : Bootloader σ}
    {xs : List SinkCall}, download b es sink bl = .ok (bl', xs) →
    bl.state = .appUpgradeInProgress → sink.offset ≤ sink.maxImageSize →
    Downloaded bl bl' sink xs := by
  intro es
  induction es with
  | nil =>
      intro sink bl xs h hst _
      cases h
      exact ⟨hst, rfl, ⟨[], (List.append_nil _).symm, rfl⟩, List.forall_mem_nil _, trivial⟩
  | cons e es ih =>
      intro sink bl xs h hst hle
      cases e with
      | chunk c =>
          obtain ⟨⟨bl₁, sink₁, r⟩, hsink, h⟩ := Call.bind_eq_ok.mp h
          obtain ⟨⟨bl₂, ys⟩, hrest, h⟩ := Call.bind_eq_ok.mp h
          cases Call.pure_eq_ok.mp h
          have hst₁ : bl₁.state = .appUpgradeInProgress :=
            (sink_traced_cases hsink).2.1.trans hst
          exact (ih hrest hst₁ (Sink.handle_offset_le hsink hle)).cons hsink hle
      | getState ticks =>
          rw [download, getState_of_upgrading hst] at h
          exact ih h hst hle
      | cancelBoot =>
          rw [download, cancelBoot_of_upgrading hst] at h
          exact ih h hst hle
      | requestBoot =>
          rw [download, requestBoot_of_upgrading hst] at h
          exact ih h hst hle
      | upgradeApp ticks =>
          rw [download, prepare_of_busy (Or.inr hst)] at h
          exact ih h hst hle

/-! ## The exits -/

/-- How a call that was not refused ends, `res` being the result of the
download. -/
structure CleanExit (b : IAppStorageBackend σ) (res : Int) (bl : Bootloader σ) (out : Outcome σ) :
    Prop where
  /-- The backend sees `beginUpgrade`, and if that succeeds the writes and one
  `endUpgrade`. -/
  calls : ∃ new, out.bl.calls = bl.calls ++ new ∧
    ((∃ r < 0, new.map Prod.snd = [.beginUpgrade r]) ∨
      ∃ r ≥ 0, ∃ r', new.map Prod.snd =
        .beginUpgrade r :: issuedBy out.sinkCalls ++ [.endUpgrade (decide (0 ≤ res)) r'])
  writes : ∀ w ∈ issuedBy out.sinkCalls, w.isWrite = true
  consecutive :
    Consecutive bl.maxApplicationImageSize.toNat 0 (issuedBy (untilError out.sinkCalls))
  /-- After an error no timer runs. -/
  error : out.result < 0 → (out.bl.state = .bootCancelled ∨ out.bl.state = .noAppToBoot) ∧
    out.bl.cancelBoot = out.bl ∧ ∀ ticks, out.bl.getState ticks = (out.bl, out.bl.state)
  ok : 0 ≤ out.result → out.result = errOK ∧
    (out.bl.state = .bootDelay ∨ out.bl.state = .noAppToBoot)
  /-- The state and the cached info are what a fresh search says. -/
  noApp : out.bl.state = .noAppToBoot ∧ out.bl.cachedAppInfo = none ↔
    locateAppDescriptor b out.bl.storage out.bl.maxApplicationImageSize = .ok none
  app : locateAppDescriptor b out.bl.storage out.bl.maxApplicationImageSize ≠ .ok none →
    ∃ desc, locateAppDescriptor b out.bl.storage out.bl.maxApplicationImageSize = .ok (some desc) ∧
      out.bl.cachedAppInfo = some desc.appInfo

/-- The final check, moving to `st` where it finds an application. -/
theorem exit_of_verify {st : State} (hst : st ≠ .noAppToBoot)
    (h : verifyAppAndUpdateState b ticks st bl = .ok bl') :
    (bl'.state = st ∨ bl'.state = .noAppToBoot) ∧ bl'.calls = bl.calls ∧
      (bl'.state = .noAppToBoot ∧ bl'.cachedAppInfo = none ↔
        locateAppDescriptor b bl'.storage bl'.maxApplicationImageSize = .ok none) ∧
      (locateAppDescriptor b bl'.storage bl'.maxApplicationImageSize ≠ .ok none →
        ∃ desc, locateAppDescriptor b bl'.storage bl'.maxApplicationImageSize = .ok (some desc) ∧
          bl'.cachedAppInfo = some desc.appInfo) := by
  rcases verify_cases h with ⟨desc, hloc, rfl⟩ | ⟨hloc, rfl⟩
  · refine ⟨Or.inl rfl, rfl, ⟨fun hno => absurd hno.1 hst, fun hnone => ?_⟩,
      fun _ => ⟨desc, hloc, rfl⟩⟩
    rw [hloc] at hnone
    cases hnone
  · exact ⟨Or.inr rfl, rfl, ⟨fun _ => hloc, fun _ => ⟨rfl, rfl⟩⟩, fun hsome => absurd hloc hsome⟩

/-- Nothing but `requestBoot` leads out of these states. -/
theorem no_timer (h : bl.state = .bootCancelled ∨ bl.state = .noAppToBoot) :
    bl.cancelBoot = bl ∧ ∀ ticks, bl.getState ticks = (bl, bl.state) := by
  refine ⟨by rcases h with h | h <;> rw [cancelBoot, h], fun ticks => ?_⟩
  rcases getState_cases bl ticks with ⟨hst, -, -⟩ | ⟨-, heq⟩
  · rcases h with h | h <;> rw [h] at hst <;> cases hst
  · exact heq

/-- The exit after `beginUpgrade` failed. -/
theorem cleanExit_of_begin {s : σ} {res r : Int} (hneg : r < 0)
    (h : verifyAppAndUpdateState b ticks .bootCancelled
      (bl.upgrading.issued s (.beginUpgrade r)) = .ok bl') :
    CleanExit b res bl { bl := bl', sinkCalls := [], result := r } := by
  obtain ⟨hst, hcalls, hno, happ⟩ := exit_of_verify (by decide) h
  exact
    { calls := ⟨_, hcalls, Or.inl ⟨r, hneg, rfl⟩⟩
      writes := List.forall_mem_nil _
      consecutive := trivial
      error := fun _ => ⟨hst, no_timer hst⟩
      ok := fun hok => absurd hneg (Int.not_lt.mpr hok)
      noApp := hno
      app := happ }

/-- The exit after a download. -/
theorem cleanExit_of_finalize {s : σ} {res r result : Int} {bl₁ : Bootloader σ}
    {xs : List SinkCall} (hr : 0 ≤ r)
    (hdown : Downloaded (bl.upgrading.issued s (.beginUpgrade r)) bl₁
      { maxImageSize := bl.maxApplicationImageSize.toNat } xs)
    (h : bl₁.finalize b ticks res = .ok (bl', result)) :
    CleanExit b res bl { bl := bl', sinkCalls := xs, result } := by
  obtain ⟨-, s₁, r₁, -, st, hverify, hresult⟩ := finalize_cases h
  have hst' : st ≠ .noAppToBoot := by
    rcases hresult with ⟨-, -, rfl⟩ | ⟨-, -, -, rfl⟩ | ⟨-, -, -, rfl⟩ <;> decide
  obtain ⟨hst, hcalls, hno, happ⟩ := exit_of_verify hst' hverify
  obtain ⟨new, hnew, hissued⟩ := hdown.calls
  have hall : bl'.calls = bl.calls ++ ((.appUpgradeInProgress, .beginUpgrade r) ::
      (new ++ [(.noAppToBoot, .endUpgrade (decide (0 ≤ res)) r₁)])) := by
    have hend : bl'.calls = bl₁.calls ++ [(.noAppToBoot, .endUpgrade (decide (0 ≤ res)) r₁)] :=
      hcalls
    have hbegin : bl₁.calls = bl.calls ++ [(.appUpgradeInProgress, .beginUpgrade r)] ++ new := hnew
    rw [hend, hbegin, List.append_assoc, List.append_assoc]
    rfl
  refine
    { calls := ⟨_, hall, Or.inr ⟨r, hr, r₁, ?_⟩⟩
      writes := hdown.writes
      consecutive := hdown.consecutive
      error := fun hneg => ?_
      ok := fun hok => ?_
      noApp := hno
      app := happ }
  · rw [List.map_cons, List.map_append, hissued]
    rfl
  · have hlt : result < 0 := hneg
    have hcancelled : st = .bootCancelled := by
      rcases hresult with ⟨-, -, hc⟩ | ⟨-, -, -, hc⟩ | ⟨-, -, rfl, -⟩
      · exact hc
      · exact hc
      · exact absurd hlt (by decide)
    rw [hcancelled] at hst
    exact ⟨hst, no_timer hst⟩
  · have hok' : result = errOK ∧ st = .bootDelay := by
      have hge : 0 ≤ result := hok
      rcases hresult with ⟨hneg, rfl, -⟩ | ⟨-, hneg, rfl, -⟩ | ⟨-, -, hres, hdelay⟩
      · omega
      · omega
      · exact ⟨hres, hdelay⟩
    rw [hok'.2] at hst
    exact ⟨hok'.1, hst⟩

/-- A call in `readyToBoot` or during another upgrade is refused and changes
nothing; every other call, if it returns, ends cleanly. -/
theorem upgradeApp_cleanExit (b : IAppStorageBackend σ) (bl : Bootloader σ)
    (prepared finalized : Nat) (es : List DownloadEvent) (res : Int) :
    (bl.state = .readyToBoot ∨ bl.state = .appUpgradeInProgress →
      upgradeApp b prepared finalized es res bl =
        .ok { bl, sinkCalls := [], result := -errInvalidState }) ∧
    (¬(bl.state = .readyToBoot ∨ bl.state = .appUpgradeInProgress) →
      ∀ out, upgradeApp b prepared finalized es res bl = .ok out → CleanExit b res bl out) := by
  constructor
  · intro hbusy
    rw [upgradeApp, prepare_of_busy hbusy]
    rfl
  · intro hidle out h
    obtain ⟨⟨bl₁, r⟩, hprep, h⟩ := Call.bind_eq_ok.mp h
    rcases prepare_cases hprep with ⟨hbusy, -, -⟩ | ⟨-, -, s, r₀, -, hbegin⟩
    · exact absurd hbusy hidle
    rcases hbegin with ⟨hneg, rfl, hverify⟩ | ⟨hr, rfl, rfl⟩
    · cases Call.pure_eq_ok.mp h
      exact cleanExit_of_begin hneg hverify
    · obtain ⟨⟨bl₂, xs⟩, hdown, h⟩ := Call.bind_eq_ok.mp h
      obtain ⟨⟨bl₃, result⟩, hfin, h⟩ := Call.bind_eq_ok.mp h
      cases Call.pure_eq_ok.mp h
      exact cleanExit_of_finalize hr (downloaded_of_download hdown rfl (Nat.zero_le _)) hfin

/-- The smallest image is downloaded into a blank storage. -/
theorem upgradeApp_cleanExit_image : ∃ bl out,
    construct ramStorage 0 (List.replicate 64 0xFF) 64 5000 = .ok bl ∧
      upgradeApp ramStorage 1 2 [.getState 1, .chunk { bytes := minimalImage }] 0 bl = .ok out ∧
      out.result = errOK ∧ out.bl.state = .bootDelay ∧ CleanExit ramStorage 0 bl out := by
  obtain ⟨bl, hbl, hidle, out, hout, hres, hst⟩ := (by decide +kernel :
    Call.ReturnsWith (construct ramStorage 0 (List.replicate 64 0xFF) 64 5000) fun bl =>
      ¬(bl.state = .readyToBoot ∨ bl.state = .appUpgradeInProgress) ∧
        Call.ReturnsWith
          (upgradeApp ramStorage 1 2 [.getState 1, .chunk { bytes := minimalImage }] 0 bl) fun out =>
            out.result = errOK ∧ out.bl.state = .bootDelay)
  exact ⟨bl, out, hbl, hout, hres, hst,
    (upgradeApp_cleanExit ramStorage bl 1 2 _ 0).2 hidle out hout⟩

/-! ## Returning -/

/-- The functions of the backend return, and so does a search with this image
size limit. -/
structure Returning (b : IAppStorageBackend σ) (maxApplicationImageSize : UInt32) : Prop where
  beginUpgrade : ∀ s, (b.beginUpgrade s).Returns
  write : ∀ s offset c, (b.write s offset c).Returns
  endUpgrade : ∀ s success, (b.endUpgrade s success).Returns
  locate : ∀ s, (locateAppDescriptor b s maxApplicationImageSize).Returns

section Returns

variable {max : UInt32} (hb : Returning b max)

include hb

theorem verify_returns (hmax : bl.maxApplicationImageSize = max) (st : State) :
    (verifyAppAndUpdateState b ticks st bl).Returns := by
  obtain ⟨r, hr⟩ := hb.locate bl.storage
  rw [verifyAppAndUpdateState, hmax, hr, Call.ok_bind]
  cases r with
  | some desc => exact ⟨_, rfl⟩
  | none => exact ⟨_, rfl⟩

theorem prepare_returns (hmax : bl.maxApplicationImageSize = max) :
    (bl.prepare b ticks).Returns := by
  by_cases hbusy : bl.state = .readyToBoot ∨ bl.state = .appUpgradeInProgress
  · exact ⟨_, prepare_of_busy hbusy⟩
  · obtain ⟨h1, h2⟩ := not_or.mp hbusy
    rw [prepare_of_idle h1 h2]
    refine .bind ((hb.beginUpgrade _).bind fun _ _ => ⟨_, rfl⟩) fun ⟨bl₁, res⟩ hbegin => ?_
    obtain ⟨s, -, rfl⟩ := traced_beginUpgrade hbegin
    by_cases hneg : res < 0
    · simp only [if_pos hneg]
      refine .bind (verify_returns hb ?_ _) fun _ _ => ⟨_, rfl⟩
      exact hmax
    · simp only [if_neg hneg]
      exact ⟨_, rfl⟩

theorem download_returns : ∀ {es : List DownloadEvent} {sink : Sink} {bl : Bootloader σ},
    bl.state = .appUpgradeInProgress → (download b es sink bl).Returns := by
  intro es
  induction es with
  | nil => exact fun _ => ⟨_, rfl⟩
  | cons e es ih =>
      intro sink bl hst
      cases e with
      | chunk c =>
          refine .bind ?_ fun ⟨bl₁, sink₁, r⟩ hsink => .bind (ih ?_) fun _ _ => ⟨_, rfl⟩
          · rw [Sink.handleNextDataChunk]
            split
            · refine .bind ((hb.write _ _ _).bind fun _ _ => ⟨_, rfl⟩) fun ⟨bl₁, res⟩ _ => ?_
              by_cases hshort : res ≥ 0 ∧ res ≠ toInt c.size
              · exact ⟨_, if_pos hshort⟩
              · exact ⟨_, if_neg hshort⟩
            · exact ⟨_, rfl⟩
          · exact (sink_traced_cases hsink).2.1.trans hst
      | getState ticks =>
          rw [download, getState_of_upgrading hst]
          exact ih hst
      | cancelBoot =>
          rw [download, cancelBoot_of_upgrading hst]
          exact ih hst
      | requestBoot =>
          rw [download, requestBoot_of_upgrading hst]
          exact ih hst
      | upgradeApp ticks =>
          rw [download, prepare_of_busy (Or.inr hst)]
          exact ih hst

/-- The assertion of the finalization stage holds in an upgrade. -/
theorem finalize_returns (hmax : bl.maxApplicationImageSize = max)
    (hst : bl.state = .appUpgradeInProgress) (res : Int) :
    (bl.finalize b ticks res).Returns := by
  refine .bind ⟨_, Call.assert_of_true hst⟩ fun _ _ => ?_
  have hend : ∀ success, ((traced b).endUpgrade bl.finishing success).Returns := fun success =>
    (hb.endUpgrade _ _).bind fun _ _ => ⟨_, rfl⟩
  have hverify : ∀ {success res bl₁} st,
      (traced b).endUpgrade bl.finishing success = .ok (bl₁, res) →
        (verifyAppAndUpdateState b ticks st bl₁).Returns := by
    intro success res bl₁ st h
    obtain ⟨s, -, rfl⟩ := traced_endUpgrade h
    refine verify_returns hb ?_ st
    exact hmax
  by_cases hneg : res < 0
  · simp only [if_pos hneg]
    exact (hend false).bind fun _ h => (hverify _ h).bind fun _ _ => ⟨_, rfl⟩
  · simp only [if_neg hneg]
    refine (hend true).bind fun ⟨bl₁, r₁⟩ h => ?_
    by_cases hneg₁ : r₁ < 0
    · simp only [if_pos hneg₁]
      exact (hverify _ h).bind fun _ _ => ⟨_, rfl⟩
    · simp only [if_neg hneg₁]
      exact (hverify _ h).bind fun _ _ => ⟨_, rfl⟩

/-- Over a backend whose functions return, every call of `upgradeApp` returns:
no download makes the assertion fail. -/
theorem upgradeApp_returns (hmax : bl.maxApplicationImageSize = max) (prepared finalized : Nat)
    (es : List DownloadEvent) (res : Int) :
    (upgradeApp b prepared finalized es res bl).Returns := by
  refine (prepare_returns hb hmax).bind fun ⟨bl₁, r⟩ hprep => ?_
  cases r with
  | some r => exact ⟨_, rfl⟩
  | none =>
      rcases prepare_cases hprep with ⟨-, -, hr⟩ | ⟨-, -, s, r₀, -, ⟨-, hr, -⟩ | ⟨-, -, rfl⟩⟩
      · cases hr
      · cases hr
      · refine (download_returns hb rfl).bind fun ⟨bl₂, xs⟩ hdown => ?_
        have hd := downloaded_of_download hdown rfl (Nat.zero_le _)
        exact (finalize_returns hb (hd.maxApplicationImageSize.trans hmax) hd.state res).bind
          fun _ _ => ⟨_, rfl⟩

end Returns

end Bootloader

end UavcanAdapter
