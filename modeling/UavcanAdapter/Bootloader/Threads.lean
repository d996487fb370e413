/-
# `Bootloader.Threads` — the controller under several threads

Any number of threads call the member functions of one `Bootloader`.  Each
function body runs under the mutex, so at that granularity the calls are
atomic steps; only `upgradeApp` gives the mutex back while it downloads.
`downloads` therefore records the activations of `upgradeApp` that are in
their download stage, each with its sink: a step may start one, hand its
sink a chunk of any content, or end it with any result of `download`.  The
downloader itself is not restricted in any way, and it may call the other
functions as well.

`Threads.Inv` is the invariant over whole runs: the controller is consistent
with the storage, writes were only issued during an upgrade, and a download
runs only in state `appUpgradeInProgress`, at most one at a time.
-/
import UavcanAdapter.Base.Machine
import UavcanAdapter.Bootloader.Control

namespace UavcanAdapter

open Base

/-- The controller, the activations of `upgradeApp` that are downloading,
and the time in system ticks since start-up. -/
structure Threads (ι σ : Type) where
  bl : Bootloader σ
  downloads : ι → Option Sink
  ticks : Nat

namespace Threads

variable {ι σ : Type} [DecidableEq ι]

/-- The steps, each with what the caller is told. -/
inductive Act (ι : Type)
  | tick (n : Nat)
  | getState (r : State)
  | getAppInfo (r : AppInfo × Bool)
  | cancelBoot
  | requestBoot
  /-- `upgradeApp` up to the download -/
  | prepare (i : ι) (r : Option Int)
  /-- a call of the sink of activation `i` -/
  | chunk (i : ι) (c : Chunk) (r : Int)
  /-- `download` returned `res`, and `upgradeApp` returns `r` -/
  | finalize (i : ι) (res r : Int)

inductive Step (b : IAppStorageBackend σ) : Threads ι σ → Act ι → Threads ι σ → Prop
  | tick {t : Threads ι σ} (n : Nat) : Step b t (.tick n) { t with ticks := t.ticks + n }
  | getState {t : Threads ι σ} :
      Step b t (.getState (t.bl.getState t.ticks).2) { t with bl := (t.bl.getState t.ticks).1 }
  | getAppInfo {t : Threads ι σ} : Step b t (.getAppInfo t.bl.getAppInfo) t
  | cancelBoot {t : Threads ι σ} : Step b t .cancelBoot { t with bl := t.bl.cancelBoot }
  | requestBoot {t : Threads ι σ} : Step b t .requestBoot { t with bl := t.bl.requestBoot }
  | refuse {t : Threads ι σ} {i : ι} {bl' : Bootloader σ} {r : Int} :
      t.bl.prepare b t.ticks = .ok (bl', some r) →
      Step b t (.prepare i (some r)) { t with bl := bl' }
  | start {t : Threads ι σ} {i : ι} {bl' : Bootloader σ} :
      t.downloads i = none → t.bl.prepare b t.ticks = .ok (bl', none) →
      Step b t (.prepare i none)
        { t with bl := bl', downloads := Function.update t.downloads i (some bl'.makeSink) }
  | chunk {t : Threads ι σ} {i : ι} {sink sink' : Sink} {c : Chunk} {bl' : Bootloader σ} {r : Int} :
      t.downloads i = some sink →
      sink.handleNextDataChunk (Bootloader.traced b) c t.bl = .ok (bl', sink', r) →
      Step b t (.chunk i c r)
        { t with bl := bl', downloads := Function.update t.downloads i (some sink') }
  | finalize {t : Threads ι σ} {i : ι} {sink : Sink} {bl' : Bootloader σ} {res r : Int} :
      t.downloads i = some sink → t.bl.finalize b t.ticks res = .ok (bl', r) →
      Step b t (.finalize i res r)
        { t with bl := bl', downloads := Function.update t.downloads i none }

/-- The threads around a freshly constructed controller. -/
def machine (b : IAppStorageBackend σ) : Machine (Threads ι σ) (Act ι) where
  init t := (∃ s max delay, Bootloader.construct b t.ticks s max delay = .ok t.bl) ∧
    ∀ i, t.downloads i = none
  step := Step b

/-- The invariant of every run. -/
structure Inv (b : IAppStorageBackend σ) (t : Threads ι σ) : Prop where
  consistent : t.bl.Consistent b
  writes : t.bl.WritesInUpgrade
  inProgress : ∀ i, t.downloads i ≠ none → t.bl.state = .appUpgradeInProgress
  atMostOne : ∀ i j, t.downloads i ≠ none → t.downloads j ≠ none → i = j

section Invariant

variable {b : IAppStorageBackend σ} {t t' : Threads ι σ}

omit [DecidableEq ι] in
/-- A step that leaves storage, history and cached info alone and moves
between states in which an application stands ready keeps the invariant. -/
theorem Inv.setState (h : Inv b t) {st : State} (hold : t.bl.state.hasApp = true)
    (hnew : st.hasApp = true) : Inv b { t with bl := { t.bl with state := st } } := by
  have hidle : ∀ i, t.downloads i = none := by
    intro i
    by_contra hi
    rw [h.inProgress i hi] at hold
    cases hold
  exact
    { consistent := ⟨fun _ => h.consistent.app hold, fun hno => by simp [hnew] at hno⟩
      writes := h.writes
      inProgress := fun i hi => absurd (hidle i) hi
      atMostOne := h.atMostOne }

theorem inv_init (h : (machine b).init t) : Inv b t := by
  obtain ⟨⟨s, max, delay, hc⟩, hidle⟩ := h
  have hframe := Bootloader.verify_frame hc
  exact
    { consistent := Bootloader.verify_consistent rfl hc
      writes := by
        intro c hcall
        rw [hframe.2.2.1] at hcall
        cases hcall
      inProgress := fun i hi => absurd (hidle i) hi
      atMostOne := fun i _ hi => absurd (hidle i) hi }

omit [DecidableEq ι] in
/-- A controller that was just checked, with no download left, satisfies
the invariant. -/
theorem Inv.of_verify {st : State} {bl bl' : Bootloader σ} {downloads : ι → Option Sink}
    (hst : st.hasApp = true) (hw : bl.WritesInUpgrade) (hidle : ∀ i, downloads i = none)
    (hv : bl.verifyAppAndUpdateState b t.ticks st = .ok bl') :
    Inv b { t with bl := bl', downloads := downloads } := by
  refine
    { consistent := Bootloader.verify_consistent hst hv
      writes := ?_
      inProgress := fun i hi => absurd (hidle i) hi
      atMostOne := fun i _ hi => absurd (hidle i) hi }
  intro c hc
  rw [(Bootloader.verify_frame hv).2.2.1] at hc
  exact hw c hc

omit [DecidableEq ι] in
theorem Inv.idle (h : Inv b t) (hst : t.bl.state ≠ .appUpgradeInProgress) (i : ι) :
    t.downloads i = none := by
  by_contra hi
  exact hst (h.inProgress i hi)

omit [DecidableEq ι] in
/-- A refused or failed preparation leaves no download behind. -/
theorem inv_refuse (h : Inv b t) {bl' : Bootloader σ} {r : Int}
    (hp : t.bl.prepare b t.ticks = .ok (bl', some r)) : Inv b { t with bl := bl' } := by
  rcases Bootloader.prepare_cases hp with ⟨-, rfl, -⟩ | ⟨-, hne, s, res, -, hcase⟩
  · exact h
  rcases hcase with ⟨-, -, hv⟩ | ⟨-, hr, -⟩
  · exact Inv.of_verify rfl (h.writes.upgrading.issued (fun _ => rfl)) (h.idle hne) hv
  · cases hr

/-- A preparation that succeeds starts the only download there is. -/
theorem inv_start (h : Inv b t) {i : ι} {bl' : Bootloader σ} {sink : Sink}
    (hp : t.bl.prepare b t.ticks = .ok (bl', none)) :
    Inv b { t with bl := bl', downloads := Function.update t.downloads i (some sink) } := by
  rcases Bootloader.prepare_cases hp with ⟨-, -, hr⟩ | ⟨-, hne, s, res, -, hcase⟩
  · cases hr
  rcases hcase with ⟨-, hr, -⟩ | ⟨-, -, rfl⟩
  · cases hr
  have hmem : ∀ j, Function.update t.downloads i (some sink) j ≠ none → j = i := by
    intro j hj
    by_contra hji
    rw [Function.update_of_ne hji] at hj
    exact hj (h.idle hne j)
  exact
    { consistent := ⟨fun hyes => (by cases hyes), fun _ => rfl⟩
      writes := h.writes.upgrading.issued (fun _ => rfl)
      inProgress := fun _ _ => rfl
      atMostOne := fun j k hj hk => by rw [hmem j hj, hmem k hk] }

/-- A chunk handed to the sink changes the storage only, and only in an
upgrade. -/
theorem inv_chunk (h : Inv b t) {i : ι} {sink sink' : Sink} {c : Chunk} {bl' : Bootloader σ} {r : Int}
    (hi : t.downloads i = some sink)
    (hc : sink.handleNextDataChunk (Bootloader.traced b) c t.bl = .ok (bl', sink', r)) :
    Inv b { t with bl := bl', downloads := Function.update t.downloads i (some sink') } := by
  have hst : t.bl.state = .appUpgradeInProgress := h.inProgress i (by simp [hi])
  have hsome : ∀ j, Function.update t.downloads i (some sink') j ≠ none → t.downloads j ≠ none := by
    intro j hj
    by_cases hji : j = i
    · simp [hji, hi]
    · rwa [Function.update_of_ne hji] at hj
  have hbl : bl' = t.bl ∨ ∃ s c, bl' = t.bl.issued s c := by
    rcases Sink.handle_cases hc with ⟨-, rfl, -⟩ | ⟨-, res, hw, -⟩
    · exact Or.inl rfl
    · obtain ⟨s, -, rfl⟩ := Bootloader.traced_write hw
      exact Or.inr ⟨s, _, rfl⟩
  rcases hbl with rfl | ⟨s, call, rfl⟩
  · exact
      { consistent := h.consistent
        writes := h.writes
        inProgress := fun _ _ => hst
        atMostOne := fun j k hj hk => h.atMostOne j k (hsome j hj) (hsome k hk) }
  · exact
      { consistent := ⟨fun hyes => by simp [Bootloader.issued, hst, State.hasApp] at hyes,
          fun hno => h.consistent.noApp hno⟩
        writes := h.writes.issued (fun _ => hst)
        inProgress := fun _ _ => hst
        atMostOne := fun j k hj hk => h.atMostOne j k (hsome j hj) (hsome k hk) }

theorem inv_finalize (h : Inv b t) {i : ι} {sink : Sink} {bl' : Bootloader σ} {res r : Int}
    (hi : t.downloads i = some sink) (hf : t.bl.finalize b t.ticks res = .ok (bl', r)) :
    Inv b { t with bl := bl', downloads := Function.update t.downloads i none } := by
  have hidle : ∀ j, Function.update t.downloads i none j = none := by
    intro j
    by_cases hji : j = i
    · simp [hji]
    · rw [Function.update_of_ne hji]
      by_contra hj
      exact hji (h.atMostOne j i hj (by simp [hi]))
  obtain ⟨-, s, r₁, -, st, hv, hcase⟩ := Bootloader.finalize_cases hf
  have hst : st.hasApp = true := by
    rcases hcase with ⟨-, -, rfl⟩ | ⟨-, -, -, rfl⟩ | ⟨-, -, -, rfl⟩ <;> rfl
  exact Inv.of_verify hst (h.writes.finishing.issued (fun hw => by cases hw)) hidle hv

/-- Every step keeps the invariant. -/
theorem inv_step {a : Act ι} (h : Inv b t) (hs : Step b t a t') : Inv b t' := by
  cases hs with
  | tick n => exact { h with }
  | getState =>
      rcases Bootloader.getState_cases t.bl t.ticks with ⟨hst, -, heq⟩ | ⟨-, heq⟩
      · rw [heq]
        exact h.setState (by rw [hst]; rfl) rfl
      · rw [heq]
        exact h
  | getAppInfo => exact h
  | cancelBoot =>
      rcases Bootloader.cancelBoot_cases t.bl with ⟨hst, heq⟩ | heq
      · rw [heq]
        exact h.setState (by rcases hst with hst | hst <;> rw [hst] <;> rfl) rfl
      · rw [heq]
        exact h
  | requestBoot =>
      rcases Bootloader.requestBoot_cases t.bl with ⟨hst, heq⟩ | heq
      · rw [heq]
        exact h.setState (by rcases hst with hst | hst <;> rw [hst] <;> rfl) rfl
      · rw [heq]
        exact h
  | refuse hp => exact inv_refuse h hp
  | start _ hp => exact inv_start h hp
  | chunk hi hc => exact inv_chunk h hi hc
  | finalize hi hf => exact inv_finalize h hi hf

/-- The invariant holds in every state a run can reach. -/
theorem inv_reachable (h : (machine b).Reachable t) : Inv b t := by
  refine Machine.Reachable.invariant (I := Inv b) ?_ ?_ h
  · intro s h0
    exact inv_init h0
  · intro s a s' _ hi hs
    exact inv_step hi hs

end Invariant

/-- In every state that any number of threads can bring about, the boot
state, the cached info and the storage agree, writes to the storage belong
to an upgrade, and whoever is to finish an upgrade finds it in progress. -/
theorem upgrade_discipline {b : IAppStorageBackend σ} {t : Threads ι σ}
    (h : (machine b).Reachable t) :
    (t.bl.state = .bootDelay ∨ t.bl.state = .bootCancelled ∨ t.bl.state = .readyToBoot →
      ∃ desc, locateAppDescriptor b t.bl.storage t.bl.maxApplicationImageSize = .ok (some desc) ∧
        t.bl.cachedAppInfo = some desc.appInfo) ∧
    (t.bl.state = .noAppToBoot ∨ t.bl.state = .appUpgradeInProgress →
      t.bl.cachedAppInfo = none) ∧
    (∀ c ∈ t.bl.calls, c.2.isWrite = true → c.1 = .appUpgradeInProgress) ∧
    (∀ i, t.downloads i ≠ none → Call.assert (t.bl.state = .appUpgradeInProgress) = .ok ()) := by
  have hinv := inv_reachable h
  refine ⟨fun hst => hinv.consistent.app ?_, fun hst => hinv.consistent.noApp ?_, hinv.writes, ?_⟩
  · rcases hst with hst | hst | hst <;> rw [hst] <;> rfl
  · rcases hst with hst | hst <;> rw [hst] <;> rfl
  · intro i hi
    exact Call.assert_of_true (hinv.inProgress i hi)

/-- A controller on a blank storage. -/
def blank : Threads Unit (List UInt8) where
  bl :=
    { state := .noAppToBoot
      cachedAppInfo := none
      bootDelayStartedAtSt := 0
      maxApplicationImageSize := 64
      bootDelayMsec := 5000
      storage := List.replicate 64 0xFF }
  downloads _ := none
  ticks := 0

/-- The same after the smallest image was downloaded, all but the end of the
upgrade. -/
def downloaded : Threads Unit (List UInt8) where
  bl :=
    { blank.bl with
      state := .appUpgradeInProgress
      storage := patch (List.replicate 64 0xFF) 0 minimalImage
      calls :=
        [(.appUpgradeInProgress, .beginUpgrade 0),
          (.appUpgradeInProgress, .write 0 { bytes := minimalImage } 32)] }
  downloads :=
    Function.update
      (Function.update blank.downloads () (some { maxImageSize := 64 }))
      () (some { maxImageSize := 64, offset := 32 })
  ticks := 0

theorem reachable_downloaded : (machine ramStorage).Reachable downloaded := by
  have h₀ : (machine ramStorage).Reachable blank :=
    .init ⟨⟨List.replicate 64 0xFF, 64, 5000, by decide +kernel⟩, fun _ => rfl⟩
  have hprepare : blank.bl.prepare ramStorage blank.ticks = .ok
      ({ blank.bl with
        state := .appUpgradeInProgress
        calls := [(.appUpgradeInProgress, .beginUpgrade 0)] }, none) := by decide +kernel
  have h₁ := h₀.step (Step.start (i := ()) rfl hprepare)
  exact h₁.step (Step.chunk (i := ()) (r := 32)
    (c := { bytes := minimalImage }) rfl (by decide +kernel))

/-- The upgrade may be finished, and what it wrote was written in the upgrade. -/
theorem upgrade_discipline_downloaded :
    Call.assert (downloaded.bl.state = .appUpgradeInProgress) = .ok () ∧
    ∀ c ∈ downloaded.bl.calls, c.2.isWrite = true → c.1 = .appUpgradeInProgress :=
  have h := upgrade_discipline reachable_downloaded
  ⟨h.2.2.2 () (by simp [downloaded]), h.2.2.1⟩

end Threads

end UavcanAdapter
