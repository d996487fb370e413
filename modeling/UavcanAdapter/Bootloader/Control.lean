/-
# `Bootloader.Control` — the bootloader controller

`class Bootloader`: the boot state, the cached application info and the
storage behind them.  Every member function runs under the mutex;
`upgradeApp` gives it back while the download runs, so it is modelled by the
stages in front of and behind the download (`prepare`, `finalize`), with the
`Sink` in between.

Storage is reached through `traced`, which keeps a history of the backend
calls next to the storage, each with the value `state_` had when the call
was issued.  `Consistent` ties state, cached info and storage content
together; every operation has a `_cases` lemma that says all it can do, and
keeps it.
-/
import UavcanAdapter.Bootloader.Locate

namespace UavcanAdapter

open Base

/-! ## The controller -/

/-- A call of the backend that may change the storage, with its result. -/
inductive BackendCall
  | beginUpgrade (res : Int)
  | write (offset : Nat) (c : Chunk) (res : Int)
  | endUpgrade (success : Bool) (res : Int)
deriving DecidableEq, Repr

/-- The call writes to the storage. -/
def BackendCall.isWrite : BackendCall → Bool
  | .write .. => true
  | _ => false

/-- `class Bootloader`, with the storage behind `backend_` and the history
of the calls that went there. -/
structure Bootloader (σ : Type) where
  state : State
  cachedAppInfo : Option AppInfo
  bootDelayStartedAtSt : Systime
  maxApplicationImageSize : UInt32
  bootDelayMsec : UInt32
  storage : σ
  calls : List (State × BackendCall) := []
deriving DecidableEq

namespace Bootloader

variable {σ : Type}

/-- The controller after a backend call. -/
def issued (bl : Bootloader σ) (s : σ) (c : BackendCall) : Bootloader σ :=
  { bl with storage := s, calls := bl.calls ++ [(bl.state, c)] }

/-- The backend as the controller calls it. -/
def traced (b : IAppStorageBackend σ) : IAppStorageBackend (Bootloader σ) where
  beginUpgrade bl := do
    let (s, res) ← b.beginUpgrade bl.storage
    return (bl.issued s (.beginUpgrade res), res)
  write bl offset c := do
    let (s, res) ← b.write bl.storage offset c
    return (bl.issued s (.write offset c res), res)
  endUpgrade bl success := do
    let (s, res) ← b.endUpgrade bl.storage success
    return (bl.issued s (.endUpgrade success res), res)
  read bl := b.read bl.storage
  length_read_le h := b.length_read_le h

variable (b : IAppStorageBackend σ)

/-- `verifyAppAndUpdateState`; `ticks` is when it reads the system time. -/
def verifyAppAndUpdateState (ticks : Nat) (stateOnSuccess : State) (bl : Bootloader σ) :
    Call (Bootloader σ) := do
  match ← locateAppDescriptor b bl.storage bl.maxApplicationImageSize with
  | some desc =>
      return { bl with
        cachedAppInfo := some desc.appInfo
        state := stateOnSuccess
        bootDelayStartedAtSt := chVTGetSystemTime ticks }
  | none => return { bl with cachedAppInfo := none, state := .noAppToBoot }

/-- The constructor, on a storage `s`. -/
def construct (ticks : Nat) (s : σ) (maxApplicationImageSize bootDelayMsec : UInt32) :
    Call (Bootloader σ) :=
  verifyAppAndUpdateState b ticks .bootDelay
    { state := .noAppToBoot, cachedAppInfo := none, bootDelayStartedAtSt := 0
      maxApplicationImageSize, bootDelayMsec, storage := s }

/-- The boot delay has run out. -/
def delayExpired (bl : Bootloader σ) (ticks : Nat) : Bool :=
  chVTTimeElapsedSinceX ticks bl.bootDelayStartedAtSt ≥ ms2st bl.bootDelayMsec

/-- `getState`. -/
def getState (ticks : Nat) (bl : Bootloader σ) : Bootloader σ × State :=
  let bl := if bl.state = .bootDelay ∧ bl.delayExpired ticks then
      { bl with state := .readyToBoot }
    else bl
  (bl, bl.state)

/-- `getAppInfo`. -/
def getAppInfo (bl : Bootloader σ) : AppInfo × Bool :=
  match bl.cachedAppInfo with
  | some info => (info, true)
  | none => ({}, false)

/-- `cancelBoot`. -/
def cancelBoot (bl : Bootloader σ) : Bootloader σ :=
  match bl.state with
  | .bootDelay | .readyToBoot => { bl with state := .bootCancelled }
  | .noAppToBoot | .bootCancelled | .appUpgradeInProgress => bl

/-- `requestBoot`. -/
def requestBoot (bl : Bootloader σ) : Bootloader σ :=
  match bl.state with
  | .bootDelay | .bootCancelled => { bl with state := .readyToBoot }
  | .noAppToBoot | .appUpgradeInProgress | .readyToBoot => bl

/-- The preparation stage of `upgradeApp`: the value it returns, or none
when the download is to follow. -/
def prepare (ticks : Nat) (bl : Bootloader σ) : Call (Bootloader σ × Option Int) :=
  match bl.state with
  | .readyToBoot | .appUpgradeInProgress => .ok (bl, some (-errInvalidState))
  | .bootDelay | .bootCancelled | .noAppToBoot => do
      let bl := { bl with state := .appUpgradeInProgress, cachedAppInfo := none }
      let (bl, res) ← (traced b).beginUpgrade bl
      if res < 0 then
        let bl ← verifyAppAndUpdateState b ticks .bootCancelled bl
        return (bl, some res)
      return (bl, none)

/-- The sink `upgradeApp` hands to the downloader. -/
def makeSink (bl : Bootloader σ) : Sink := { maxImageSize := bl.maxApplicationImageSize.toNat }

/-- The finalization stage of `upgradeApp`, after `download` returned `res`. -/
def finalize (ticks : Nat) (res : Int) (bl : Bootloader σ) : Call (Bootloader σ × Int) := do
  Call.assert (bl.state = .appUpgradeInProgress)
  let bl := { bl with state := .noAppToBoot }
  if res < 0 then
    let (bl, _) ← (traced b).endUpgrade bl false
    let bl ← verifyAppAndUpdateState b ticks .bootCancelled bl
    return (bl, res)
  let (bl, res) ← (traced b).endUpgrade bl true
  if res < 0 then
    let bl ← verifyAppAndUpdateState b ticks .bootCancelled bl
    return (bl, res)
  let bl ← verifyAppAndUpdateState b ticks .bootDelay bl
  return (bl, errOK)

/-! ## What the operations can do -/

variable {b} {bl bl' : Bootloader σ} {ticks : Nat}

/-- The controller's state, its cached info and the content of the storage
agree. -/
structure Consistent (b : IAppStorageBackend σ) (bl : Bootloader σ) : Prop where
  app : bl.state.hasApp = true → ∃ desc,
    locateAppDescriptor b bl.storage bl.maxApplicationImageSize = .ok (some desc) ∧
      bl.cachedAppInfo = some desc.appInfo
  noApp : bl.state.hasApp = false → bl.cachedAppInfo = none

/-- Writes to the storage were only issued during an upgrade. -/
def WritesInUpgrade (bl : Bootloader σ) : Prop :=
  ∀ c ∈ bl.calls, c.2.isWrite = true → c.1 = .appUpgradeInProgress

theorem WritesInUpgrade.issued (h : WritesInUpgrade bl) {s : σ} {c : BackendCall}
    (hc : c.isWrite = true → bl.state = .appUpgradeInProgress) :
    WritesInUpgrade (bl.issued s c) := by
  intro d hd hw
  rcases List.mem_append.mp hd with hd | hd
  · exact h d hd hw
  · rw [List.mem_singleton.mp hd] at hw ⊢
    exact hc hw

theorem traced_beginUpgrade {res : Int} (h : (traced b).beginUpgrade bl = .ok (bl', res)) :
    ∃ s, b.beginUpgrade bl.storage = .ok (s, res) ∧ bl' = bl.issued s (.beginUpgrade res) := by
  obtain ⟨⟨s, r⟩, hb, h⟩ := Call.bind_eq_ok.mp h
  cases Call.pure_eq_ok.mp h
  exact ⟨s, hb, rfl⟩

theorem traced_endUpgrade {success : Bool} {res : Int}
    (h : (traced b).endUpgrade bl success = .ok (bl', res)) :
    ∃ s, b.endUpgrade bl.storage success = .ok (s, res) ∧
      bl' = bl.issued s (.endUpgrade success res) := by
  obtain ⟨⟨s, r⟩, hb, h⟩ := Call.bind_eq_ok.mp h
  cases Call.pure_eq_ok.mp h
  exact ⟨s, hb, rfl⟩

theorem traced_write {offset : Nat} {c : Chunk} {res : Int}
    (h : (traced b).write bl offset c = .ok (bl', res)) :
    ∃ s, b.write bl.storage offset c = .ok (s, res) ∧ bl' = bl.issued s (.write offset c res) := by
  obtain ⟨⟨s, r⟩, hb, h⟩ := Call.bind_eq_ok.mp h
  cases Call.pure_eq_ok.mp h
  exact ⟨s, hb, rfl⟩

/-- The check finds an application and moves to the given state, or finds
none and says so. -/
theorem verify_cases {st : State}
    (h : verifyAppAndUpdateState b ticks st bl = .ok bl') :
    (∃ desc, locateAppDescriptor b bl.storage bl.maxApplicationImageSize = .ok (some desc) ∧
      bl' = { bl with
        cachedAppInfo := some desc.appInfo
        state := st
        bootDelayStartedAtSt := chVTGetSystemTime ticks }) ∨
    (locateAppDescriptor b bl.storage bl.maxApplicationImageSize = .ok none ∧
      bl' = { bl with cachedAppInfo := none, state := .noAppToBoot }) := by
  obtain ⟨r, hloc, h⟩ := Call.bind_eq_ok.mp h
  cases r with
  | some desc => exact Or.inl ⟨desc, hloc, (Call.pure_eq_ok.mp h).symm⟩
  | none => exact Or.inr ⟨hloc, (Call.pure_eq_ok.mp h).symm⟩

/-- The check leaves a consistent controller behind, whatever came before. -/
theorem verify_consistent {st : State} (hst : st.hasApp = true)
    (h : verifyAppAndUpdateState b ticks st bl = .ok bl') : Consistent b bl' := by
  rcases verify_cases h with ⟨desc, hloc, rfl⟩ | ⟨hloc, rfl⟩
  · exact ⟨fun _ => ⟨desc, hloc, rfl⟩, fun hno => by simp [hst] at hno⟩
  · exact ⟨fun hyes => by simp [State.hasApp] at hyes, fun _ => rfl⟩

/-- The check ends in the given state or in `noAppToBoot`, and neither the
storage nor the history moves. -/
theorem verify_frame {st : State} (h : verifyAppAndUpdateState b ticks st bl = .ok bl') :
    (bl'.state = st ∨ bl'.state = .noAppToBoot) ∧ bl'.storage = bl.storage ∧
      bl'.calls = bl.calls ∧ bl'.maxApplicationImageSize = bl.maxApplicationImageSize := by
  rcases verify_cases h with ⟨desc, -, rfl⟩ | ⟨-, rfl⟩
  · exact ⟨Or.inl rfl, rfl, rfl, rfl⟩
  · exact ⟨Or.inr rfl, rfl, rfl, rfl⟩

/-- `getState` fires the boot delay timer or changes nothing. -/
theorem getState_cases (bl : Bootloader σ) (ticks : Nat) :
    (bl.state = .bootDelay ∧ bl.delayExpired ticks = true ∧
      bl.getState ticks = ({ bl with state := .readyToBoot }, .readyToBoot)) ∨
    (¬(bl.state = .bootDelay ∧ bl.delayExpired ticks = true) ∧
      bl.getState ticks = (bl, bl.state)) := by
  by_cases h : bl.state = .bootDelay ∧ bl.delayExpired ticks = true
  · exact Or.inl ⟨h.1, h.2, by simp [getState, h]⟩
  · exact Or.inr ⟨h, by simp [getState, h]⟩

theorem cancelBoot_cases (bl : Bootloader σ) :
    ((bl.state = .bootDelay ∨ bl.state = .readyToBoot) ∧
      bl.cancelBoot = { bl with state := .bootCancelled }) ∨ bl.cancelBoot = bl := by
  unfold cancelBoot
  cases h : bl.state <;> simp

theorem requestBoot_cases (bl : Bootloader σ) :
    ((bl.state = .bootDelay ∨ bl.state = .bootCancelled) ∧
      bl.requestBoot = { bl with state := .readyToBoot }) ∨ bl.requestBoot = bl := by
  unfold requestBoot
  cases h : bl.state <;> simp

/-- The controller as the preparation stage hands it to the backend. -/
def upgrading (bl : Bootloader σ) : Bootloader σ :=
  { bl with state := .appUpgradeInProgress, cachedAppInfo := none }

/-- The controller as the finalization stage hands it to the backend. -/
def finishing (bl : Bootloader σ) : Bootloader σ := { bl with state := .noAppToBoot }

theorem WritesInUpgrade.upgrading (h : WritesInUpgrade bl) : WritesInUpgrade bl.upgrading := h

theorem WritesInUpgrade.finishing (h : WritesInUpgrade bl) : WritesInUpgrade bl.finishing := h

/-- The preparation stage where it refuses. -/
theorem prepare_of_busy (h : bl.state = .readyToBoot ∨ bl.state = .appUpgradeInProgress) :
    prepare b ticks bl = .ok (bl, some (-errInvalidState)) := by
  rcases h with h | h <;> rw [prepare, h]

/-- The preparation stage where it does not refuse. -/
theorem prepare_of_idle (h1 : bl.state ≠ .readyToBoot) (h2 : bl.state ≠ .appUpgradeInProgress) :
    prepare b ticks bl = (do
      let (bl, res) ← (traced b).beginUpgrade bl.upgrading
      if res < 0 then
        let bl ← verifyAppAndUpdateState b ticks .bootCancelled bl
        return (bl, some res)
      return (bl, none) : Call (Bootloader σ × Option Int)) := by
  rw [prepare]
  cases hbl : bl.state <;> simp_all [upgrading]

/-- The preparation stage refuses, fails in the backend, or leaves the
controller in an upgrade. -/
theorem prepare_cases {r : Option Int} (h : prepare b ticks bl = .ok (bl', r)) :
    ((bl.state = .readyToBoot ∨ bl.state = .appUpgradeInProgress) ∧ bl' = bl ∧
      r = some (-errInvalidState)) ∨
    (bl.state ≠ .readyToBoot ∧ bl.state ≠ .appUpgradeInProgress ∧ ∃ s res,
      b.beginUpgrade bl.storage = .ok (s, res) ∧
      ((res < 0 ∧ r = some res ∧ verifyAppAndUpdateState b ticks .bootCancelled
        (bl.upgrading.issued s (.beginUpgrade res)) = .ok bl') ∨
       (0 ≤ res ∧ r = none ∧ bl' = bl.upgrading.issued s (.beginUpgrade res)))) := by
  by_cases hst : bl.state = .readyToBoot ∨ bl.state = .appUpgradeInProgress
  · rw [prepare_of_busy hst] at h
    cases h
    exact Or.inl ⟨hst, rfl, rfl⟩
  · obtain ⟨h1, h2⟩ := not_or.mp hst
    refine Or.inr ⟨h1, h2, ?_⟩
    rw [prepare_of_idle h1 h2] at h
    obtain ⟨⟨bl₁, res⟩, hbegin, h'⟩ := Call.bind_eq_ok.mp h
    obtain ⟨s, hb, rfl⟩ := traced_beginUpgrade hbegin
    refine ⟨s, res, hb, ?_⟩
    by_cases hneg : res < 0
    · simp only [if_pos hneg] at h'
      obtain ⟨bl₂, hv, h'⟩ := Call.bind_eq_ok.mp h'
      cases Call.pure_eq_ok.mp h'
      exact Or.inl ⟨hneg, rfl, hv⟩
    · simp only [if_neg hneg] at h'
      cases Call.pure_eq_ok.mp h'
      exact Or.inr ⟨by omega, rfl, rfl⟩

/-- The finalization stage asserts the state, makes one `endUpgrade` call
and checks the application afresh. -/
theorem finalize_cases {res r : Int} (h : finalize b ticks res bl = .ok (bl', r)) :
    bl.state = .appUpgradeInProgress ∧ ∃ s r₁,
      b.endUpgrade bl.storage (decide (0 ≤ res)) = .ok (s, r₁) ∧
      ∃ st, verifyAppAndUpdateState b ticks st
          (bl.finishing.issued s (.endUpgrade (decide (0 ≤ res)) r₁)) = .ok bl' ∧
        ((res < 0 ∧ r = res ∧ st = .bootCancelled) ∨
         (0 ≤ res ∧ r₁ < 0 ∧ r = r₁ ∧ st = .bootCancelled) ∨
         (0 ≤ res ∧ 0 ≤ r₁ ∧ r = errOK ∧ st = .bootDelay)) := by
  obtain ⟨u, hassert, h⟩ := Call.bind_eq_ok.mp h
  refine ⟨Call.assert_eq_ok.mp hassert, ?_⟩
  by_cases hneg : res < 0
  · simp only [if_pos hneg] at h
    obtain ⟨⟨bl₁, r₁⟩, hend, h⟩ := Call.bind_eq_ok.mp h
    obtain ⟨s, hb, rfl⟩ := traced_endUpgrade hend
    obtain ⟨bl₂, hv, h⟩ := Call.bind_eq_ok.mp h
    cases Call.pure_eq_ok.mp h
    have hd : decide (0 ≤ res) = false := by simp; omega
    rw [hd]
    exact ⟨s, r₁, hb, _, hv, Or.inl ⟨hneg, rfl, rfl⟩⟩
  · have hd : decide (0 ≤ res) = true := by simp; omega
    simp only [if_neg hneg] at h
    rw [hd]
    obtain ⟨⟨bl₁, r₁⟩, hend, h⟩ := Call.bind_eq_ok.mp h
    obtain ⟨s, hb, rfl⟩ := traced_endUpgrade hend
    refine ⟨s, r₁, hb, ?_⟩
    by_cases hneg₁ : r₁ < 0
    · simp only [if_pos hneg₁] at h
      obtain ⟨bl₂, hv, h⟩ := Call.bind_eq_ok.mp h
      cases Call.pure_eq_ok.mp h
      exact ⟨_, hv, Or.inr (Or.inl ⟨by omega, hneg₁, rfl, rfl⟩)⟩
    · simp only [if_neg hneg₁] at h
      obtain ⟨bl₂, hv, h⟩ := Call.bind_eq_ok.mp h
      cases Call.pure_eq_ok.mp h
      exact ⟨_, hv, Or.inr (Or.inr ⟨by omega, by omega, rfl, rfl⟩)⟩

end Bootloader

end UavcanAdapter
