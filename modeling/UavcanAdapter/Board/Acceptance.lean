/-
# `Board.Acceptance` — updates that were accepted

The node accepts an update when the state of the controller allows one, and
starts it when the call of `poll` that brought the request comes back.  In
between both threads may ask for the state, which lets the boot delay
expire; the upgrade is then refused, although it was accepted.

`accepted_upgrade_starts` is about the runs in which that does not happen:
there every accepted update starts.  It also says that the update is lost
whenever it does happen.
-/
import UavcanAdapter.Board.Handover
import UavcanAdapter.Flash.AppStorage

namespace UavcanAdapter

open Base

namespace Board

variable {σ : Type} {b : IAppStorageBackend σ} {id : NodeIdentity} {s s' : Board σ} {i : Input}
  {is : List Input}

/-- The input makes a thread call `getState`. -/
def asksState (s : Board σ) : Input → Bool
  | .main => decide (s.main = .poll)
  | .receive _ t => s.nodePc.polls && decide (s.node.Admits t) && decide (Node.AsksState t)
  | .status => s.nodePc.sendsStatus
  | .node =>
      match s.nodePc with
      | .report result => decide (0 ≤ result)
      | _ => false
  | .tick _ | .start _ | .chunk _ | .finish _ => false

/-- The input makes a thread call `getState` when the boot delay is over. -/
def TimerFires (s : Board σ) (i : Input) : Prop :=
  s.asksState i = true ∧ s.bl.state = .bootDelay ∧ s.bl.delayExpired s.ticks = true

/-- The boot delay does not expire between acceptance and upgrade. -/
def Undisturbed (s : Board σ) (i : Input) : Prop := s.accepted = true → ¬s.TimerFires i

instance decUndisturbed (s : Board σ) (i : Input) : Decidable (s.Undisturbed i) :=
  inferInstanceAs (Decidable (_ → ¬(_ ∧ _ ∧ _)))

/-- An update that was accepted waits for the node's main loop, and the
controller is in a state in which it can start. -/
structure Pending (s : Board σ) : Prop where
  nodePc : s.nodePc = .init ∨ s.nodePc = .update ∨ s.nodePc = .exited
  notReady : s.bl.state ≠ .readyToBoot
  notInProgress : s.bl.state ≠ .appUpgradeInProgress

/-- Asking for the state before the delay is over leaves the controller
alone. -/
theorem bl_eq_of_undisturbed {p : Prop} [Decidable p] (hp : p → s.asksState i = true)
    (hun : ¬s.TimerFires i) :
    (if p then (s.bl.getState s.ticks).1 else s.bl) = s.bl := by
  split
  · rename_i h
    rw [Bootloader.getState_of_not_expired (fun hexp => hun ⟨hp h, hexp⟩)]
  · rfl

/-- A node that takes transfers while no upgrade is in progress is in one of
its two main loops. -/
theorem nodePc_of_polls (hinv : Inv b s) (hpolls : s.nodePc.polls = true)
    (hprogress : (s.bl.getState s.ticks).2 ≠ .appUpgradeInProgress) :
    s.nodePc = .init ∨ s.nodePc = .update ∨ s.nodePc = .exited := by
  have hidle : ∀ sink, s.nodePc ≠ .download sink := by
    refine hinv.not_download fun hst => hprogress ?_
    show (s.bl.getState s.ticks).1.state = _
    rw [Bootloader.getState_of_not_expired (by rw [hst]; rintro ⟨hc, -⟩; cases hc), hst]
  cases hpc : s.nodePc with
  | init => exact Or.inl rfl
  | update => exact Or.inr (Or.inl rfl)
  | download sink => exact absurd hpc (hidle sink)
  | off | report | exited => rw [hpc] at hpolls; cases hpolls

theorem pending_step (hinv : Inv b s) (h : s.accepted = true → Pending s)
    (hun : s.Undisturbed i) (hs : Effect b id s i s') : s'.accepted = true → Pending s' := by
  cases hs with
  | idle => exact h
  | tick =>
      intro hacc
      obtain ⟨hpc, hready, hprogress⟩ := h hacc
      exact ⟨hpc, hready, hprogress⟩
  | start hmain =>
      intro hacc
      have hpc := (h hacc).nodePc
      rw [hinv.startup hmain] at hpc
      rcases hpc with hpc | hpc | hpc <;> cases hpc
  | main hmain =>
      intro hacc
      obtain ⟨hpc, -, hacc', -⟩ := stepMain_frame s hmain
      rw [hacc'] at hacc
      have hbl : (stepMain s).bl = s.bl := (stepMain_bl s).trans
        (bl_eq_of_undisturbed (i := .main) (fun hp => decide_eq_true hp) (hun hacc))
      obtain ⟨hold, hready, hprogress⟩ := h hacc
      exact ⟨by rw [hpc]; exact hold, by rw [hbl]; exact hready, by rw [hbl]; exact hprogress⟩
  | @receive env t node bl sent hpolls hadm hrec =>
      intro hacc
      obtain ⟨hbl, haccepts⟩ := Node.reception_bootloader hrec
      cases hold : s.accepted with
      | true =>
          have hask : Node.AsksState t → s.asksState (.receive env t) = true := by
            intro hask
            simp [asksState, hpolls, hadm, hask]
          have hsame : bl = s.bl := hbl.trans (bl_eq_of_undisturbed hask (hun hold))
          obtain ⟨hpc, hready, hprogress⟩ := h hold
          exact ⟨hpc, by rw [hsame]; exact hready, by rw [hsame]; exact hprogress⟩
      | false =>
          -- accepted just now
          rw [hold, Bool.false_or] at hacc
          obtain ⟨hask, hprogress, hready⟩ := haccepts hacc
          rw [if_pos hask] at hbl
          have hstate : (s.bl.getState s.ticks).2 = bl.state := by
            rw [hbl]
            rfl
          have hpc := nodePc_of_polls hinv hpolls hprogress
          exact ⟨hpc, hstate ▸ hready, hstate ▸ hprogress⟩
  | status =>
      intro hacc
      have hpc : s.nodePc.sendsStatus = true := ‹_›
      have hsame : (s.bl.getState s.ticks).1 = s.bl :=
        bl_eq_of_undisturbed (i := .status) (p := True) (fun _ => hpc) (hun hacc)
      obtain ⟨hold, hready, hprogress⟩ := h hacc
      exact ⟨hold, by simpa only [hsame] using hready, by simpa only [hsame] using hprogress⟩
  | move _ hpc =>
      intro hacc
      obtain ⟨-, hready, hprogress⟩ := h hacc
      refine ⟨?_, hready, hprogress⟩
      rcases hpc with rfl | rfl
      · exact Or.inr (Or.inr rfl)
      · exact Or.inr (Or.inl rfl)
  | refuse | begin => exact fun hacc => by cases hacc
  | report hpc | chunk hpc | finish hpc =>
      intro hacc
      have hold := (h hacc).nodePc
      rw [hpc] at hold
      rcases hold with hold | hold | hold <;> cases hold

theorem pending_reachable
    (h : ((machine b id).restrict fun s i _ => s.Undisturbed i).Reachable s) :
    s.accepted = true → Pending s := by
  have hboth : Inv b s ∧ (s.accepted = true → Pending s) := by
    refine Machine.Reachable.invariant (I := fun s => Inv b s ∧ (s.accepted = true → Pending s))
      ?_ ?_ h
    · intro s h0
      have h0' : (machine b id).init s := h0
      exact ⟨inv_init h0', fun hacc => by rw [h0.2.2.2] at hacc; cases hacc⟩
    · rintro s i s' - ⟨hinv, hp⟩ ⟨hst, hun⟩
      exact ⟨inv_step hinv hst, pending_step hinv hp hun (effect_of_step hst)⟩
  exact hboth.2

/-- When the timer fires the controller becomes ready to boot. -/
theorem bl_of_fires (hf : s.TimerFires i) (hs : step b id s i = .ok s') :
    s'.bl = { s.bl with state := .readyToBoot } := by
  obtain ⟨hask, hst, hexp⟩ := hf
  have hget : (s.bl.getState s.ticks).1 = { s.bl with state := .readyToBoot } := by
    rw [Bootloader.getState, if_pos ⟨hst, hexp⟩]
  rw [← hget]
  cases i with
  | main =>
      cases hs
      exact (stepMain_bl s).trans (if_pos (of_decide_eq_true hask))
  | receive env t =>
      simp only [asksState, Bool.and_eq_true, decide_eq_true_eq] at hask
      rw [step, if_pos hask.1] at hs
      obtain ⟨⟨node, bl, sent⟩, hrec, hs⟩ := Call.bind_eq_ok.mp hs
      cases Call.pure_eq_ok.mp hs
      exact (Node.reception_bootloader hrec).1.trans (if_pos hask.2)
  | status =>
      simp only [asksState] at hask
      simp only [step, hask, if_true] at hs
      cases hs
      rfl
  | node =>
      rw [step, stepNode] at hs
      cases hpc : s.nodePc with
      | report result =>
          simp only [asksState, hpc, decide_eq_true_eq] at hask
          simp only [hpc] at hs
          cases hs
          exact (stepReport_bl s result).trans (if_pos hask)
      | off | init | update | download _ | exited => simp [asksState, hpc] at hask
  | tick | start | chunk | finish => cases hask

/-- In runs in which the boot delay does not expire while an accepted update
waits, `upgradeApp` starts every accepted update.  If it does expire, every
later call is refused. -/
theorem accepted_upgrade_starts {t : Target} {s : Board Flash}
    (h : ((machine (appStorageBackend t) id).restrict fun s i _ => s.Undisturbed i).Reachable s)
    (hacc : s.accepted = true) :
    (∃ bl, s.bl.prepare (appStorageBackend t) s.ticks = .ok (bl, none) ∧
      bl.state = .appUpgradeInProgress) ∧
    ∀ (i : Input) (is : List Input) (s' s'' : Board Flash), s.TimerFires i →
      (machine (appStorageBackend t) id).step s i s' →
      Machine.Run (machine (appStorageBackend t) id) s' is s'' →
        s''.bl.prepare (appStorageBackend t) s''.ticks = .ok (s''.bl, some (-errInvalidState)) := by
  have hpending := pending_reachable h hacc
  have hinv := inv_reachable h.of_restrict
  constructor
  · refine ⟨s.bl.upgrading.issued s.bl.storage (.beginUpgrade 0), ?_, rfl⟩
    have hready := hpending.notReady
    have hprogress := hpending.notInProgress
    rw [Bootloader.prepare]
    cases hst : s.bl.state with
    | readyToBoot => exact absurd hst hready
    | appUpgradeInProgress => exact absurd hst hprogress
    | bootDelay | bootCancelled | noAppToBoot => rfl
  · intro i is s' s'' hf hst hrun
    have hbl := bl_of_fires hf hst
    have hmain : s.main ≠ .startup := by
      intro hmain
      have hpc := hpending.nodePc
      rw [hinv.startup hmain] at hpc
      rcases hpc with hpc | hpc | hpc <;> cases hpc
    have hmain' : s'.main ≠ .startup := by
      cases effect_of_step hst with
      | main => exact (stepMain_frame s hmain).2.2.2
      | start => exact fun hc => by cases hc
      | idle | tick | receive | status | move | refuse | begin | report | chunk | finish =>
          exact hmain
    have hready : Ready (appStorageBackend t) s'.bl s' :=
      ⟨inv_step hinv hst, hmain', rfl, by rw [hbl]⟩
    have hlast := hready.run hrun
    exact Bootloader.prepare_of_busy (Or.inl (hlast.bl_eq ▸ hlast.state))

/-- A request of node 2 to update from a file of its own. -/
def updateRequest : CanardRxTransfer where
  payload := [0, 0x61]
  dataTypeId := BeginFirmwareUpdate.dataTypeId
  transferType := .request
  transferId := 0
  sourceNodeId := 2

/-- The node is started with an ID and gets the request. -/
def requested : List Input :=
  [.start (some { uavcanNodeId := 1 }), .node, .receive quiet updateRequest]

/-- It accepts, and the upgrade starts. -/
theorem accepted_upgrade_starts_image : ∃ s : Board Flash, s.accepted = true ∧
    ∃ bl, s.bl.prepare (appStorageBackend .twoPages) s.ticks = .ok (bl, none) ∧
      bl.state = .appUpgradeInProgress := by
  obtain ⟨bl, hbl, s, hs, hacc⟩ := (by decide +kernel :
    Call.ReturnsWith (Bootloader.construct (appStorageBackend .twoPages) 0
        (Target.twoPages.flashed minimalImage) 1024 5000)
      fun bl => Call.ReturnsWith (requested.foldlM (fun s i => if s.Undisturbed i then
          step (appStorageBackend .twoPages) {} s i else .error .hang) { bl })
        fun s => s.accepted = true)
  have hinit : (machine (appStorageBackend .twoPages) {}).init { bl } :=
    ⟨⟨_, _, _, hbl⟩, rfl, rfl, rfl⟩
  have hrun := Machine.run_of_foldlM (machine (appStorageBackend .twoPages) {}).init Halt.hang
    hs
  exact ⟨s, hacc, (accepted_upgrade_starts (hrun.reachable (.init hinit)) hacc).1⟩

/-- The boot delay expires in the `poll` that brought the request. -/
theorem accepted_upgrade_refused :
    ¬∀ (t : Target) (id : NodeIdentity) (s : Board Flash),
      (machine (appStorageBackend t) id).Reachable s → s.accepted = true → s.nodePc = .update →
      s.node.rebootRequested = false → s.node.remoteServerNodeId ≠ 0 →
        ∃ bl, s.bl.prepare (appStorageBackend t) s.ticks = .ok (bl, none) ∧
          bl.state = .appUpgradeInProgress := by
  intro h
  obtain ⟨bl, hbl, s, hs, hacc, hpc, hreboot, hserver, hst⟩ := (by decide +kernel :
    Call.ReturnsWith (Bootloader.construct (appStorageBackend .twoPages) 0
        (Target.twoPages.flashed minimalImage) 1024 5000)
      fun bl => Call.ReturnsWith ((requested ++ [Input.tick 50000, .status]).foldlM (fun s i =>
          if True then step (appStorageBackend .twoPages) {} s i else .error .hang) { bl })
        fun s => s.accepted = true ∧ s.nodePc = .update ∧ s.node.rebootRequested = false ∧
          s.node.remoteServerNodeId ≠ 0 ∧ s.bl.state = .readyToBoot)
  have hinit : (machine (appStorageBackend .twoPages) {}).init { bl } :=
    ⟨⟨_, _, _, hbl⟩, rfl, rfl, rfl⟩
  have hrun := (Machine.run_of_foldlM (machine (appStorageBackend .twoPages) {}).init Halt.hang
    hs).of_restrict
  obtain ⟨bl', hprep, -⟩ := h .twoPages {} s (hrun.reachable (.init hinit)) hacc hpc hreboot
    hserver
  rw [Bootloader.prepare_of_busy (Or.inl hst)] at hprep
  cases hprep

end Board

end UavcanAdapter
