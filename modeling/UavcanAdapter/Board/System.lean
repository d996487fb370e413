/-
# `Board.System` — the two threads of the board

`main` polls the controller and hands over to the application; the thread of
the UAVCAN node receives transfers, and starts an upgrade once it has a
server.  One machine has the steps of both and of the clock.  A download is
in it with every behaviour it can have: any chunks, any result.

Under `Board.threads` the runs of this machine are runs of the one in
`Bootloader.Threads` (`threads_step`), so its invariant is at hand here.
-/
import UavcanAdapter.Bootloader.Threads
import UavcanAdapter.Node.Reception

namespace UavcanAdapter

open Base

/-- `struct AppShared`, the members that `main` reads.  The file name is the
string in its buffer of 201 characters. -/
structure AppShared where
  uavcanNodeId : UInt8 := 0
  uavcanFwServerNodeId : UInt8 := 0
  uavcanFileName : HString 200 := .empty
  stayInBootloader : Bool := false

/-- Where `main` is. -/
inductive MainPc
  /-- in front of `bootloader_app_interface::readAndErase` -/
  | startup
  /-- at the condition of the main loop -/
  | loop
  /-- in front of `getState` -/
  | poll
  /-- behind the main loop, which ended because the state was `ReadyToBoot`
  or because a reboot was requested -/
  | behind (ready : Bool)
  /-- on the way to `board::restart` -/
  | restarting
  /-- between `os::requestReboot` and `board::bootApplication` -/
  | handover
  | booted
deriving DecidableEq, Repr

/-- Where `UAVCANFirmwareUpdateNode::main` is. -/
inductive NodePc
  /-- the thread was not started yet -/
  | off
  /-- bit rate detection, node ID allocation and driver setup -/
  | init
  /-- at the top of the update loop -/
  | update
  /-- in `download`, called by `upgradeApp` with this sink -/
  | download (sink : Sink)
  /-- behind `upgradeApp`, which returned `result` -/
  | report (result : Int)
  | exited
deriving DecidableEq, Repr

namespace NodePc

/-- `poll` is called here. -/
def polls : NodePc → Bool
  | .init | .update | .download _ => true
  | .off | .report _ | .exited => false

/-- `sendNodeStatus` is called here. -/
def sendsStatus : NodePc → Bool
  | .update | .download _ | .report _ => true
  | .off | .init | .exited => false

/-- The sink of the download that is running. -/
def sink? : NodePc → Option Sink
  | .download sink => some sink
  | .off | .init | .update | .report _ | .exited => none

end NodePc

/-- The board.  `accepted` is set when the node answers a BeginFirmwareUpdate
request with "error = 0", up to the next call of `upgradeApp`. -/
structure Board (σ : Type) where
  bl : Bootloader σ
  ticks : Nat := 0
  main : MainPc := .startup
  node : Node := {}
  nodePc : NodePc := .off
  accepted : Bool := false

namespace Board

variable {σ : Type}

inductive Input
  | tick (n : Nat)
  /-- `main` reads the shared data and starts the node -/
  | start (shared : Option AppShared)
  /-- the next step of `main` -/
  | main
  /-- `poll` got a transfer off the bus -/
  | receive (env : Env Unit) (t : CanardRxTransfer)
  /-- `sendNodeStatus` -/
  | status
  /-- the next step of the node's `main` -/
  | node
  /-- the downloader calls the sink -/
  | chunk (c : Chunk)
  /-- `download` returns, and `upgradeApp` finishes -/
  | finish (res : Int)

/-- The environment of the handler, with the controller as it is. -/
def environment (env : Env Unit) (ticks : Nat) : Env (Bootloader σ) where
  getState := Bootloader.getState ticks
  getAppInfo := Bootloader.getAppInfo
  now := env.now
  later := env.later
  rand := env.rand
  rand' := env.rand'
  uptimeSec := env.uptimeSec
  enqueued := env.enqueued
  stack := env.stack

/-- The node as `UAVCANFirmwareUpdateNode::start` leaves it. -/
def startNode (shared : AppShared) (n : Node) : Node :=
  let n :=
    if canardMinNodeId ≤ shared.uavcanFwServerNodeId ∧
        shared.uavcanFwServerNodeId ≤ canardMaxNodeId then
      { n with
        remoteServerNodeId := shared.uavcanFwServerNodeId
        firmwareFilePath := shared.uavcanFileName }
    else n
  if canardMinNodeId ≤ shared.uavcanNodeId ∧ shared.uavcanNodeId ≤ canardMaxNodeId then
    { n with localNodeId := shared.uavcanNodeId }
  else n

/-- `main` up to its loop. -/
def stepStart (shared : Option AppShared) (s : Board σ) : Board σ :=
  let data := shared.getD {}
  { s with
    bl := if data.stayInBootloader then s.bl.cancelBoot else s.bl
    node := startNode data s.node
    main := .loop
    nodePc := .init }

/-- `main` from its loop on. -/
def stepMain (s : Board σ) : Board σ :=
  match s.main with
  | .loop => { s with main := if s.node.rebootRequested then .behind false else .poll }
  | .poll =>
      let (bl, st) := s.bl.getState s.ticks
      { s with bl, main := if st = .readyToBoot then .behind true else .loop }
  | .behind _ =>
      if s.node.rebootRequested then { s with main := .restarting }
      else { s with node := { s.node with rebootRequested := true }, main := .handover }
  | .handover => { s with main := .booted }
  | .startup | .restarting | .booted => s

/-- The handler of a received transfer. -/
def stepReceive (id : NodeIdentity) (env : Env Unit) (t : CanardRxTransfer) (s : Board σ) :
    Call (Board σ) := do
  let (node, bl, sent) ← Node.onTransferReception id (environment env s.ticks) t s.node s.bl
  return { s with node, bl, accepted := s.accepted || Node.acceptsUpdate sent }

variable (b : IAppStorageBackend σ)

/-- The update loop in front of `upgradeApp`, and its preparation stage. -/
def stepUpdate (s : Board σ) : Call (Board σ) :=
  if s.node.rebootRequested then .ok { s with nodePc := .exited }
  else if s.node.remoteServerNodeId = 0 then .ok s
  else do
    let (bl, r) ← s.bl.prepare b s.ticks
    let nodePc := match r with
      | some r => .report r
      | none => .download bl.makeSink
    return { s with bl, nodePc, accepted := false }

/-- The update loop behind `upgradeApp`. -/
def stepReport (result : Int) (s : Board σ) : Board σ :=
  { s with
    bl := if 0 ≤ result then (s.bl.getState s.ticks).1 else s.bl
    node := { s.node with
      vendorSpecificStatus := if 0 ≤ result then 0 else UInt16.ofNat result.natAbs
      remoteServerNodeId := 0
      firmwareFilePath := .empty }
    nodePc := .update }

/-- The next step of the node's `main`. -/
def stepNode (s : Board σ) : Call (Board σ) :=
  match s.nodePc with
  | .init =>
      if s.node.rebootRequested then .ok { s with nodePc := .exited }
      else if s.node.localNodeId = 0 then .ok s
      else .ok { s with nodePc := .update }
  | .update => stepUpdate b s
  | .report result => .ok (stepReport result s)
  | .off | .download _ | .exited => .ok s

/-- One input.  What does not belong to the place a thread is at has no
effect. -/
def step (id : NodeIdentity) (s : Board σ) : Input → Call (Board σ)
  | .tick n => .ok { s with ticks := s.ticks + n }
  | .start shared => .ok (if s.main = .startup then stepStart shared s else s)
  | .main => .ok (stepMain s)
  | .receive env t =>
      if s.nodePc.polls = true ∧ s.node.Admits t then stepReceive id env t s else .ok s
  | .status =>
      .ok (if s.nodePc.sendsStatus then { s with bl := (s.bl.getState s.ticks).1 } else s)
  | .node => stepNode b s
  | .chunk c =>
      match s.nodePc with
      | .download sink => do
          let (bl, sink, _) ← sink.handleNextDataChunk (Bootloader.traced b) c s.bl
          return { s with bl, nodePc := .download sink }
      | _ => .ok s
  | .finish res =>
      match s.nodePc with
      | .download _ => do
          let (bl, r) ← s.bl.finalize b s.ticks res
          return { s with bl, nodePc := .report r }
      | _ => .ok s

/-- A controller that was just constructed, and no thread running. -/
def machine (id : NodeIdentity) : Machine (Board σ) Input :=
  .ofFunction
    (fun s => (∃ st max delay, Bootloader.construct b s.ticks st max delay = .ok s.bl) ∧
      s.main = .startup ∧ s.nodePc = .off ∧ s.accepted = false)
    (step b id)

/-- The controller, with the upgrade of the node if there is one. -/
def threads (s : Board σ) : Threads Unit σ where
  bl := s.bl
  downloads _ := s.nodePc.sink?
  ticks := s.ticks

variable {b} {id : NodeIdentity} {s s' : Board σ} {i : Input}

/-! ## What a step can do -/

/-- The steps that have an effect, each with its guard. -/
inductive Effect (b : IAppStorageBackend σ) (id : NodeIdentity) (s : Board σ) :
    Input → Board σ → Prop
  | idle {i : Input} : Effect b id s i s
  | tick (n : Nat) : Effect b id s (.tick n) { s with ticks := s.ticks + n }
  | start {shared : Option AppShared} : s.main = .startup →
      Effect b id s (.start shared) (stepStart shared s)
  | main : s.main ≠ .startup → Effect b id s .main (stepMain s)
  | receive {env : Env Unit} {t : CanardRxTransfer} {node : Node} {bl : Bootloader σ}
      {sent : List Sent} : s.nodePc.polls = true → s.node.Admits t →
      Node.onTransferReception id (environment env s.ticks) t s.node s.bl = .ok (node, bl, sent) →
      Effect b id s (.receive env t)
        { s with node, bl, accepted := s.accepted || Node.acceptsUpdate sent }
  | status : s.nodePc.sendsStatus = true →
      Effect b id s .status { s with bl := (s.bl.getState s.ticks).1 }
  /-- the node's thread ends, or comes to its update loop -/
  | move {pc : NodePc} : (s.nodePc = .init ∨ s.nodePc = .update) → (pc = .exited ∨ pc = .update) →
      Effect b id s .node { s with nodePc := pc }
  | refuse {bl : Bootloader σ} {r : Int} : s.nodePc = .update →
      s.bl.prepare b s.ticks = .ok (bl, some r) →
      Effect b id s .node { s with bl, nodePc := .report r, accepted := false }
  | begin {bl : Bootloader σ} : s.nodePc = .update → s.bl.prepare b s.ticks = .ok (bl, none) →
      Effect b id s .node { s with bl, nodePc := .download bl.makeSink, accepted := false }
  | report {result : Int} : s.nodePc = .report result →
      Effect b id s .node (stepReport result s)
  | chunk {c : Chunk} {sink sink' : Sink} {bl : Bootloader σ} {r : Int} :
      s.nodePc = .download sink →
      sink.handleNextDataChunk (Bootloader.traced b) c s.bl = .ok (bl, sink', r) →
      Effect b id s (.chunk c) { s with bl, nodePc := .download sink' }
  | finish {res r : Int} {sink : Sink} {bl : Bootloader σ} : s.nodePc = .download sink →
      s.bl.finalize b s.ticks res = .ok (bl, r) →
      Effect b id s (.finish res) { s with bl, nodePc := .report r }

theorem effect_node (h : stepNode b s = .ok s') : Effect b id s .node s' := by
  rw [stepNode] at h
  cases hpc : s.nodePc with
  | init =>
      simp only [hpc] at h
      split at h
      · cases h
        exact .move (Or.inl hpc) (Or.inl rfl)
      split at h <;> cases h
      · exact .idle
      · exact .move (Or.inl hpc) (Or.inr rfl)
  | update =>
      simp only [hpc, stepUpdate] at h
      split at h
      · cases h
        exact .move (Or.inr hpc) (Or.inl rfl)
      split at h
      · cases h
        exact .idle
      obtain ⟨⟨bl, r⟩, hp, h⟩ := Call.bind_eq_ok.mp h
      cases Call.pure_eq_ok.mp h
      cases r with
      | some r => exact .refuse hpc hp
      | none => exact .begin hpc hp
  | report result =>
      simp only [hpc] at h
      cases h
      exact .report hpc
  | off | download _ | exited =>
      simp only [hpc] at h
      cases h
      exact .idle

theorem effect_of_step (h : step b id s i = .ok s') : Effect b id s i s' := by
  cases i with
  | tick n =>
      cases h
      exact .tick n
  | start shared =>
      cases h
      split
      · exact .start ‹_›
      · exact .idle
  | main =>
      cases h
      by_cases hmain : s.main = .startup
      · have heq : stepMain s = s := by rw [stepMain, hmain]
        rw [heq]
        exact .idle
      · exact .main hmain
  | receive env t =>
      rw [step] at h
      split at h
      · rename_i hguard
        obtain ⟨⟨node, bl, sent⟩, hrec, h⟩ := Call.bind_eq_ok.mp h
        cases Call.pure_eq_ok.mp h
        exact .receive hguard.1 hguard.2 hrec
      · cases h
        exact .idle
  | status =>
      cases h
      split
      · exact .status ‹_›
      · exact .idle
  | node => exact effect_node h
  | chunk c =>
      rw [step] at h
      cases hpc : s.nodePc with
      | download sink =>
          simp only [hpc] at h
          obtain ⟨⟨bl, sink', r⟩, hc, h⟩ := Call.bind_eq_ok.mp h
          cases Call.pure_eq_ok.mp h
          exact .chunk hpc hc
      | off | init | update | report _ | exited =>
          simp only [hpc] at h
          cases h
          exact .idle
  | finish res =>
      rw [step] at h
      cases hpc : s.nodePc with
      | download sink =>
          simp only [hpc] at h
          obtain ⟨⟨bl, r⟩, hf, h⟩ := Call.bind_eq_ok.mp h
          cases Call.pure_eq_ok.mp h
          exact .finish hpc hf
      | off | init | update | report _ | exited =>
          simp only [hpc] at h
          cases h
          exact .idle

/-- The node and the clock go on without `main`, which does not come back to
its beginning. -/
theorem stepMain_frame (s : Board σ) (hmain : s.main ≠ .startup) :
    (stepMain s).nodePc = s.nodePc ∧ (stepMain s).ticks = s.ticks ∧
      (stepMain s).accepted = s.accepted ∧ (stepMain s).main ≠ .startup := by
  rw [stepMain]
  split
  · refine ⟨rfl, rfl, rfl, ?_⟩
    dsimp only
    split <;> (intro hc; cases hc)
  · refine ⟨rfl, rfl, rfl, ?_⟩
    dsimp only
    split <;> (intro hc; cases hc)
  · split <;> exact ⟨rfl, rfl, rfl, fun hc => by cases hc⟩
  · exact ⟨rfl, rfl, rfl, fun hc => by cases hc⟩
  · exact absurd ‹_› hmain
  · exact ⟨rfl, rfl, rfl, hmain⟩
  · exact ⟨rfl, rfl, rfl, hmain⟩

/-- After the start `main` only asks for the state. -/
theorem stepMain_bl (s : Board σ) :
    (stepMain s).bl = if s.main = .poll then (s.bl.getState s.ticks).1 else s.bl := by
  rw [stepMain]
  cases s.main with
  | behind ready => simp only; split <;> rfl
  | startup | loop | poll | restarting | handover | booted => rfl

theorem stepReport_bl (s : Board σ) (result : Int) :
    (stepReport result s).bl = if 0 ≤ result then (s.bl.getState s.ticks).1 else s.bl := rfl

/-! ## The invariant -/

theorem update_downloads (f : Unit → Option Sink) (x : Option Sink) :
    Function.update f () x = fun _ => x := by
  funext u
  cases u
  simp

/-- A step that only asks for the state, or does not even do that. -/
theorem threads_getState {p : Prop} [Decidable p]
    (hbl : s'.bl = if p then (s.bl.getState s.ticks).1 else s.bl)
    (hsink : s'.nodePc.sink? = s.nodePc.sink?) (hticks : s'.ticks = s.ticks) :
    s'.threads = s.threads ∨ ∃ a, Threads.Step b s.threads a s'.threads := by
  split at hbl
  · have heq : s'.threads = { s.threads with bl := (s.threads.bl.getState s.threads.ticks).1 } := by
      simp only [threads, hbl, hsink, hticks]
    rw [heq]
    exact Or.inr ⟨_, .getState⟩
  · exact Or.inl (by simp only [threads, hbl, hsink, hticks])

theorem threads_start (shared : Option AppShared) (hoff : s.nodePc = .off) :
    (stepStart shared s).threads = s.threads ∨
      ∃ a, Threads.Step b s.threads a (stepStart shared s).threads := by
  by_cases hstay : (shared.getD {}).stayInBootloader = true
  · have heq : (stepStart shared s).threads = { s.threads with bl := s.threads.bl.cancelBoot } := by
      simp only [stepStart, threads, hstay, if_true, hoff]
      rfl
    rw [heq]
    exact Or.inr ⟨_, .cancelBoot⟩
  · refine Or.inl ?_
    simp only [stepStart, threads, hstay, hoff]
    rfl

/-- Every step of the board is one of the threads around the controller, or
does not concern it. -/
theorem threads_step (hstart : s.main = .startup → s.nodePc = .off) (h : Effect b id s i s') :
    s'.threads = s.threads ∨ ∃ a, Threads.Step b s.threads a s'.threads := by
  have hsink : ∀ {sink : Sink}, s.nodePc = .download sink → s.threads.downloads () = some sink := by
    intro sink hpc
    simp only [threads, hpc]
    rfl
  have hnone : s.nodePc = .update → s.threads.downloads () = none := by
    intro hpc
    simp only [threads, hpc]
    rfl
  cases h with
  | idle => exact Or.inl rfl
  | tick n => exact Or.inr ⟨_, .tick n⟩
  | start hmain => exact threads_start _ (hstart hmain)
  | main hmain =>
      obtain ⟨hpc, hticks, -⟩ := stepMain_frame s hmain
      exact threads_getState (stepMain_bl s) (by rw [hpc]) hticks
  | receive _ _ hrec => exact threads_getState (Node.reception_bootloader hrec).1 rfl rfl
  | status => exact threads_getState (p := True) rfl rfl rfl
  | move hpc hpc' =>
      refine Or.inl ?_
      rcases hpc with hpc | hpc <;> rcases hpc' with rfl | rfl <;> simp only [threads, hpc] <;> rfl
  | @refuse bl r hpc hp =>
      have heq : threads { s with bl, nodePc := .report r, accepted := false }
          = { s.threads with bl } := by
        simp only [threads, hpc]
        rfl
      rw [heq]
      exact Or.inr ⟨.prepare () _, .refuse hp⟩
  | @begin bl hpc hp =>
      have heq : threads { s with bl, nodePc := .download bl.makeSink, accepted := false }
          = { s.threads with
              bl, downloads := Function.update s.threads.downloads () (some bl.makeSink) } := by
        rw [update_downloads]
        rfl
      rw [heq]
      exact Or.inr ⟨_, .start (hnone hpc) hp⟩
  | report hpc => exact threads_getState (stepReport_bl s _) (by rw [hpc]; rfl) rfl
  | @chunk c sink sink' bl r hpc hc =>
      have heq : threads { s with bl, nodePc := .download sink' } = { s.threads with
          bl, downloads := Function.update s.threads.downloads () (some sink') } := by
        rw [update_downloads]
        rfl
      rw [heq]
      exact Or.inr ⟨_, .chunk (hsink hpc) hc⟩
  | @finish res r sink bl hpc hf =>
      have heq : threads { s with bl, nodePc := .report r } = { s.threads with
          bl, downloads := Function.update s.threads.downloads () none } := by
        rw [update_downloads]
        rfl
      rw [heq]
      exact Or.inr ⟨_, .finalize (hsink hpc) hf⟩

/-- The invariant of every run. -/
structure Inv (b : IAppStorageBackend σ) (s : Board σ) : Prop where
  threads : Threads.Inv b s.threads
  startup : s.main = .startup → s.nodePc = .off

theorem inv_init (h : (machine b id).init s) : Inv b s := by
  obtain ⟨hbl, hmain, hpc, -⟩ := h
  refine ⟨Threads.inv_init ⟨hbl, fun _ => ?_⟩, fun _ => hpc⟩
  simp only [threads, hpc]
  rfl

/-- The node runs only after `main` has started it. -/
theorem startup_step (hoff : s.main = .startup → s.nodePc = .off) (h : Effect b id s i s') :
    s'.main = .startup → s'.nodePc = .off := by
  have hrun : ∀ {p : Prop}, s.nodePc ≠ .off → s.main = .startup → p :=
    fun hpc hmain => absurd (hoff hmain) hpc
  cases h with
  | idle | tick | receive | status => exact hoff
  | start => exact fun hmain => by cases hmain
  | main hmain => exact fun hmain' => absurd hmain' (stepMain_frame s hmain).2.2.2
  | move hpc => rcases hpc with hpc | hpc <;> exact hrun (by rw [hpc]; intro hc; cases hc)
  | refuse hpc | begin hpc | report hpc | chunk hpc | finish hpc =>
      exact hrun (by rw [hpc]; intro hc; cases hc)

/-- Every step keeps the invariant. -/
theorem inv_step (h : Inv b s) (hs : step b id s i = .ok s') : Inv b s' := by
  have heff := effect_of_step hs
  refine ⟨?_, startup_step h.startup heff⟩
  rcases threads_step h.startup heff with heq | ⟨a, hst⟩
  · rw [heq]
    exact h.threads
  · exact Threads.inv_step h.threads hst

theorem inv_reachable (h : (machine b id).Reachable s) : Inv b s := by
  refine Machine.Reachable.invariant (I := Inv b) ?_ ?_ h
  · intro s h0
    exact inv_init h0
  · intro s i s' _ hi hs
    exact inv_step hi hs

/-- While no upgrade is in progress no download runs. -/
theorem Inv.not_download (h : Inv b s) (hst : s.bl.state ≠ .appUpgradeInProgress) (sink : Sink) :
    s.nodePc ≠ .download sink := by
  intro hpc
  have hidle : s.nodePc.sink? = none := h.threads.idle hst ()
  rw [hpc] at hidle
  cases hidle

end Board

end UavcanAdapter
