/-
# `Board.Handover` — from the decision to boot to the application

Once `getState` has told `main` to boot, `main` sleeps and writes before it
jumps, and the node goes on with whatever it is doing.  It finds a
controller in state `ReadyToBoot`, which no download can be running with,
and which nobody but the start of `main` can take out of that state
(`ready_step`).
-/
import UavcanAdapter.Board.System

namespace UavcanAdapter

open Base

namespace Bootloader

variable {σ : Type} {b : IAppStorageBackend σ} {bl : Bootloader σ} {ticks : Nat}

theorem getState_of_not_expired (h : ¬(bl.state = .bootDelay ∧ bl.delayExpired ticks = true)) :
    bl.getState ticks = (bl, bl.state) := by
  rcases bl.getState_cases ticks with ⟨hst, hexp, -⟩ | ⟨-, heq⟩
  · exact absurd ⟨hst, hexp⟩ h
  · exact heq

theorem getState_of_ready (h : bl.state = .readyToBoot) :
    bl.getState ticks = (bl, .readyToBoot) := by
  rw [getState_of_not_expired (by rw [h]; rintro ⟨hc, -⟩; cases hc), h]

end Bootloader

namespace Board

variable {σ : Type} {b : IAppStorageBackend σ} {id : NodeIdentity} {s s' : Board σ} {i : Input}
  {is : List Input}

/-- The controller that is ready to boot, with `main` past its start. -/
structure Ready (b : IAppStorageBackend σ) (bl : Bootloader σ) (s : Board σ) : Prop where
  inv : Inv b s
  main : s.main ≠ .startup
  bl_eq : s.bl = bl
  state : bl.state = .readyToBoot

/-- No step of either thread changes it. -/
theorem Ready.step {bl : Bootloader σ} (h : Ready b bl s) (hs : (machine b id).step s i s') :
    Ready b bl s' := by
  have hst : s.bl.state = .readyToBoot := h.bl_eq ▸ h.state
  have hget : s.bl.getState s.ticks = (s.bl, .readyToBoot) := Bootloader.getState_of_ready hst
  have hidle := h.inv.not_download (by rw [hst]; intro hc; cases hc)
  have hask : ∀ {p : Prop} [Decidable p],
      (if p then (s.bl.getState s.ticks).1 else s.bl) = s.bl := by
    intro p _
    rw [hget, ite_self]
  suffices hsame : s'.bl = s.bl ∧ s'.main ≠ .startup from
    ⟨inv_step h.inv hs, hsame.2, hsame.1.trans h.bl_eq, h.state⟩
  cases effect_of_step hs with
  | idle | tick | move => exact ⟨rfl, h.main⟩
  | start hmain => exact absurd hmain h.main
  | main hmain => exact ⟨(stepMain_bl s).trans hask, (stepMain_frame s hmain).2.2.2⟩
  | receive _ _ hrec => exact ⟨(Node.reception_bootloader hrec).1.trans hask, h.main⟩
  | status => exact ⟨by rw [hget], h.main⟩
  | refuse hpc hp =>
      rw [Bootloader.prepare_of_busy (Or.inl hst)] at hp
      cases hp
      exact ⟨rfl, h.main⟩
  | begin hpc hp =>
      rw [Bootloader.prepare_of_busy (Or.inl hst)] at hp
      cases hp
  | report => exact ⟨(stepReport_bl s _).trans hask, h.main⟩
  | chunk hpc | finish hpc => exact absurd hpc (hidle _)

theorem Ready.run {bl : Bootloader σ} (h : Ready b bl s)
    (hrun : Machine.Run (machine b id) s is s') : Ready b bl s' := by
  induction hrun with
  | nil => exact h
  | cons hst _ ih => exact ih (h.step hst)

/-- From the call of `getState` that tells `main` to boot on, in every run:
the state is `ReadyToBoot`, the backend is not called, `upgradeApp` refuses,
and the application that was found is still in the storage. -/
theorem handover_safe (h : (machine b id).Reachable s) (hmain : s.main = .poll)
    (hready : (s.bl.getState s.ticks).2 = .readyToBoot)
    (hrun : Machine.Run (machine b id) s (.main :: is) s') :
    s'.bl.state = .readyToBoot ∧ s'.bl.calls = s.bl.calls ∧
      s'.bl.prepare b s'.ticks = .ok (s'.bl, some (-errInvalidState)) ∧
      ∃ desc, locateAppDescriptor b s'.bl.storage s'.bl.maxApplicationImageSize
        = .ok (some desc) := by
  cases hrun with
  | cons hst hrest =>
      have hcalls : (s.bl.getState s.ticks).1.calls = s.bl.calls := by
        rcases s.bl.getState_cases s.ticks with ⟨-, -, heq⟩ | ⟨-, heq⟩ <;> rw [heq]
      have hstate : (s.bl.getState s.ticks).1.state = .readyToBoot := by
        rcases s.bl.getState_cases s.ticks with ⟨-, -, heq⟩ | ⟨-, heq⟩
        · rw [heq]
        · rw [heq] at hready ⊢
          exact hready
      have hinv := inv_step (inv_reachable h) hst
      cases hst
      have hfirst : Ready b (s.bl.getState s.ticks).1 (stepMain s) :=
        { inv := hinv
          main := (stepMain_frame s (by rw [hmain]; intro hc; cases hc)).2.2.2
          bl_eq := (stepMain_bl s).trans (if_pos hmain)
          state := hstate }
      have hlast := hfirst.run hrest
      have hst' : s'.bl.state = .readyToBoot := hlast.bl_eq ▸ hstate
      obtain ⟨desc, hloc, -⟩ := hlast.inv.threads.consistent.app (by
        show s'.bl.state.hasApp = true
        rw [hst']
        rfl)
      exact ⟨hst', by rw [hlast.bl_eq, hcalls], Bootloader.prepare_of_busy (Or.inl hst'), desc, hloc⟩

/-- A board with the smallest image in its storage and no boot delay. -/
def imageBoard : Board (List UInt8) where
  bl :=
    { state := .bootDelay
      cachedAppInfo := some
        { imageCrc := 4119698442623985176
          imageSize := 32
          vcsCommit := 7
          majorVersion := 1
          minorVersion := 2 }
      bootDelayStartedAtSt := 0
      maxApplicationImageSize := 64
      bootDelayMsec := 0
      storage := minimalImage }

/-- It boots. -/
theorem handover_safe_image : ∃ s s',
    Machine.Run (machine ramStorage {}) imageBoard [.start none, .main] s ∧
    Machine.Run (machine ramStorage {}) s [.main, .node, .main, .tick 5000, .main] s' ∧
      s'.main = .booted ∧ s'.bl.calls = s.bl.calls := by
  have hinit : (machine ramStorage {}).init imageBoard :=
    ⟨⟨minimalImage, 64, 0, by decide +kernel⟩, rfl, rfl, rfl⟩
  obtain ⟨s, hs, hmain, hready, s', hs', hbooted⟩ := (by decide +kernel :
    Call.ReturnsWith ([Input.start none, .main].foldlM
        (fun s i => if True then step ramStorage {} s i else .error .hang) imageBoard)
      fun s => s.main = .poll ∧ (s.bl.getState s.ticks).2 = .readyToBoot ∧
        Call.ReturnsWith ([Input.main, .node, .main, .tick 5000, .main].foldlM
            (fun s i => if True then step ramStorage {} s i else .error .hang) s)
          fun s' => s'.main = .booted)
  have hrun := (Machine.run_of_foldlM (machine ramStorage {}).init Halt.hang hs).of_restrict
  have hrun' := (Machine.run_of_foldlM (machine ramStorage {}).init Halt.hang hs').of_restrict
  exact ⟨s, s', hrun, hrun', hbooted,
    (handover_safe (hrun.reachable (.init hinit)) hmain hready hrun').2.1⟩

end Board

end UavcanAdapter
