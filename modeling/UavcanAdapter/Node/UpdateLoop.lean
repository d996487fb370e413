/-
# `Node.UpdateLoop` — the whole life of the update node

`UAVCANFirmwareUpdateNode::main` with everything it calls: the allocation of
an ID, the loop that waits for an update request, `upgradeApp` with the
download in it, and the end of an update.  Wherever `poll` is called any
transfer may come in, and the bootloader may be in any state when the
handler asks for it.

Server and path are chosen by `start`, or by the request that is accepted
while there is no server; from then on the handler leaves them alone
(`Node.reception_frame`), and so does every step but the one that clears them
(`step_keeps`).
-/
import UavcanAdapter.Board.System
import UavcanAdapter.Node.Allocation
import UavcanAdapter.Node.Download

namespace UavcanAdapter

open Base

/-! ## What the handler leaves alone -/

namespace Node

variable {β : Type} {id : NodeIdentity} {env : Env β} {t : CanardRxTransfer} {n n' : Node}
  {bl bl' : β} {sent : List Sent}

/-- The server and the path of `n'` are those of `n`. -/
def SameRequest (n n' : Node) : Prop :=
  n'.remoteServerNodeId = n.remoteServerNodeId ∧ n'.firmwareFilePath = n.firmwareFilePath

theorem SameRequest.rfl : SameRequest n n := ⟨Eq.refl _, Eq.refl _⟩

theorem SameRequest.trans {n'' : Node} (h : SameRequest n n') (h' : SameRequest n' n'') :
    SameRequest n n'' := ⟨h'.1.trans h.1, h'.2.trans h.2⟩

theorem takeAllocatedNodeId_frame (h : takeAllocatedNodeId t n = .ok n') : SameRequest n n' := by
  obtain ⟨u, -, h⟩ := Call.bind_eq_ok.mp h
  obtain ⟨localNodeId, -, h⟩ := Call.bind_eq_ok.mp h
  cases Call.pure_eq_ok.mp h
  exact .rfl

theorem onAllocation_frame (h : onAllocation id env t n = .ok n') : SameRequest n n' := by
  rw [onAllocation] at h
  simp only at h
  by_cases hsrc : t.sourceNodeId = canardBroadcastNodeId
  · rw [if_pos hsrc] at h
    cases Call.pure_eq_ok.mp h
    exact .rfl
  rw [if_neg hsrc] at h
  obtain ⟨⟨received, len⟩, -, h⟩ := Call.bind_eq_ok.mp h
  obtain ⟨isMatch, -, h⟩ := Call.bind_eq_ok.mp h
  cases isMatch with
  | false =>
      cases Call.pure_eq_ok.mp h
      exact .rfl
  | true =>
      simp only [Bool.not_true, Bool.false_eq_true, if_false] at h
      by_cases hlen : len < 16
      · rw [if_pos hlen] at h
        cases Call.pure_eq_ok.mp h
        exact .rfl
      · rw [if_neg hlen] at h
        have hsame := takeAllocatedNodeId_frame h
        exact hsame

/-- A node keeps its ID, and only a BeginFirmwareUpdate request changes server
and path. -/
theorem reception_request (h : onTransferReception id env t n bl = .ok (n', bl', sent)) :
    (n.localNodeId ≠ 0 → n'.localNodeId = n.localNodeId) ∧
      (SameRequest n n' ∨ n' = (onBeginFirmwareUpdate env t n bl).1) := by
  cases handled_of_reception h with
  | allocation h0 hb hd hn' => exact ⟨fun hid => absurd h0 hid, Or.inl (onAllocation_frame hn')⟩
  | info | ignored => exact ⟨fun _ => rfl, Or.inl .rfl⟩
  | restart =>
      rw [onRestartNode]
      split
      · exact ⟨fun _ => rfl, Or.inl .rfl⟩
      · exact ⟨fun _ => rfl, Or.inl .rfl⟩
  | begin hreq hd hbegin =>
      have hn' : (onBeginFirmwareUpdate env t n bl).1 = n' := congrArg Prod.fst hbegin
      refine ⟨fun _ => ?_, Or.inr hn'.symm⟩
      rw [← hn', onBeginFirmwareUpdate]
      simp only
      split
      · rfl
      · split <;> rfl
  | read htype hd hawaits hn' =>
      rw [onFileReadResponse_frame hn']
      exact ⟨fun _ => rfl, Or.inl .rfl⟩

/-- Once there is a server, no transfer changes server and path. -/
theorem reception_frame (hsel : n.remoteServerNodeId ≠ 0)
    (h : onTransferReception id env t n bl = .ok (n', bl', sent)) : SameRequest n n' := by
  rcases (reception_request h).2 with hsame | hn'
  · exact hsame
  · rw [hn', onBeginFirmwareUpdate_of_selected hsel]
    exact .rfl

/-- A received transfer goes through the filter into the handler. -/
def receive (id : NodeIdentity) (env : Env Unit) (t : CanardRxTransfer) (n : Node) :
    Call (Node × List Sent) :=
  if n.Admits t then do
    let (n, _, sent) ← onTransferReception id env t n ()
    return (n, sent)
  else .ok (n, [])

section Receive

variable {env : Env Unit}

theorem receive_cases (h : receive id env t n = .ok (n', sent)) :
    (∃ bl, onTransferReception id env t n () = .ok (n', bl, sent)) ∨ n' = n := by
  rw [receive] at h
  split at h
  · obtain ⟨⟨n₁, bl, sent₁⟩, hrec, h⟩ := Call.bind_eq_ok.mp h
    cases Call.pure_eq_ok.mp h
    exact Or.inl ⟨bl, hrec⟩
  · cases h
    exact Or.inr rfl

theorem receive_frame (h : receive id env t n = .ok (n', sent)) :
    (n.localNodeId ≠ 0 → n'.localNodeId = n.localNodeId) ∧
      (n.remoteServerNodeId ≠ 0 → SameRequest n n') := by
  rcases receive_cases h with ⟨bl, hrec⟩ | rfl
  · exact ⟨(reception_request hrec).1, fun hsel => reception_frame hsel hrec⟩
  · exact ⟨fun _ => rfl, fun _ => .rfl⟩

/-- A node that has a server only now took the path out of the transfer. -/
theorem receive_selects (hsel : n.remoteServerNodeId = 0) (hsel' : n'.remoteServerNodeId ≠ 0)
    (h : receive id env t n = .ok (n', sent)) : n'.firmwareFilePath = copyPath t := by
  rcases receive_cases h with ⟨bl, hrec⟩ | rfl
  · rcases (reception_request hrec).2 with hsame | hn'
    · rw [hsame.1] at hsel'
      exact absurd hsel hsel'
    · rw [onBeginFirmwareUpdate] at hn'
      simp only at hn'
      split at hn'
      · rw [hn'] at hsel'
        exact absurd hsel hsel'
      split at hn'
      · rw [hn'] at hsel'
        exact absurd hsel hsel'
      · rw [hn']
  · exact absurd hsel hsel'

end Receive

end Node

/-- Where `UAVCANFirmwareUpdateNode::main` is. -/
inductive UpdatePc
  /-- the thread was not started yet -/
  | off
  /-- in front of the allocation of an ID -/
  | detect
  /-- in `performDynamicNodeIDAllocation` -/
  | allocate (pc : Node.Allocation.Pc) (transferId : UInt8)
  /-- in the update loop, up to `upgradeApp` -/
  | update
  /-- in `download`, called by `upgradeApp` -/
  | download (pc : DownloadPc) (offset : UInt64)
  /-- behind `upgradeApp`, which returned `result` -/
  | report (result : Int)
  | exited
deriving DecidableEq

namespace UpdatePc

/-- `poll` is called here. -/
def polls : UpdatePc → Bool
  | .allocate .inner _ | .update | .download .wait _ | .download .pause _ => true
  | .off | .detect | .allocate .outer _ | .allocate .done _ | .download .request _
  | .download (.done _) _ | .report _ | .exited => false

/-- The update loop has been reached. -/
def inLoop : UpdatePc → Bool
  | .update | .download _ _ | .report _ => true
  | .off | .detect | .allocate _ _ | .exited => false

end UpdatePc

/-- The node and the place of its `main`. -/
structure UpdateLoop where
  node : Node := {}
  pc : UpdatePc := .off
deriving DecidableEq

namespace UpdateLoop

open Download (Output)

/-- What moves the node. -/
inductive Input
  /-- `UAVCANFirmwareUpdateNode::start` -/
  | start (shared : AppShared)
  /-- `poll` got a transfer off the bus -/
  | receive (env : Env Unit) (t : CanardRxTransfer)
  /-- the next step of `main` outside the functions it calls -/
  | main
  /-- the two loops of the allocation -/
  | enter (now rand : UInt64)
  | look (now : UInt64)
  /-- `upgradeApp` up to the download: what it returns, if it returns already -/
  | upgrade (refused : Option Int)
  /-- the steps of the download -/
  | request (enqueued : Int)
  | checkWait (expired : Bool) (sinkRes : Int)
  | checkPause (elapsed : Bool)
  /-- `upgradeApp` behind the download: what it returns -/
  | finish (result : Int)
  /-- the end of a pass of the update loop -/
  | report
  /-- another thread requests a reboot -/
  | requestReboot

section Steps

variable (id : NodeIdentity)

/-- The next step of `main`. -/
def stepMain (s : UpdateLoop) : Call (UpdateLoop × List Output) :=
  match s.pc with
  | .detect =>
      if s.node.rebootRequested then .ok ({ s with pc := .exited }, [])
      else if s.node.localNodeId = 0 then .ok ({ s with pc := .allocate .outer 0 }, [])
      else .ok ({ s with pc := .update }, [])
  | .allocate .done _ =>
      if s.node.rebootRequested then .ok ({ s with pc := .exited }, [])
      else .ok ({ s with pc := .update }, [])
  | .update => do
      Call.assert (s.node.localNodeId > 0)
      return (if s.node.rebootRequested then { s with pc := .exited } else s, [])
  | .off | .allocate .outer _ | .allocate .inner _ | .download _ _ | .report _ | .exited =>
      .ok (s, [])

/-- A step of the allocation. -/
def stepAllocation (a : Node.Allocation.Input) (s : UpdateLoop) : Call (UpdateLoop × List Output) :=
  match s.pc with
  | .allocate pc transferId => do
      let al ← Node.Allocation.step id
        { node := s.node, pc, nodeIdAllocationTransferId := transferId } a
      return ({ node := al.node, pc := .allocate al.pc al.nodeIdAllocationTransferId }, [])
  | _ => .ok (s, [])

/-- A step of the download. -/
def stepDownload (i : Download.Input) (s : UpdateLoop) : Call (UpdateLoop × List Output) :=
  match s.pc with
  | .download pc offset => do
      let (d, out) ← Download.step id { node := s.node, pc, offset } i
      return ({ node := d.node, pc := .download d.pc d.offset }, out)
  | _ => .ok (s, [])

/-- The update loop goes into `upgradeApp`. -/
def stepUpgrade (refused : Option Int) (s : UpdateLoop) : UpdateLoop :=
  if s.pc = .update ∧ s.node.rebootRequested = false ∧ s.node.remoteServerNodeId ≠ 0 then
    match refused with
    | some result => { s with pc := .report result }
    | none => { s with pc := .download .request 0 }
  else s

/-- `upgradeApp` returns. -/
def stepFinish (result : Int) (s : UpdateLoop) : UpdateLoop :=
  match s.pc with
  | .download (.done _) _ => { s with pc := .report result }
  | _ => s

/-- The end of a pass: everything is reset. -/
def stepReport (s : UpdateLoop) : UpdateLoop :=
  match s.pc with
  | .report result =>
      { node := { s.node with
          vendorSpecificStatus := if 0 ≤ result then 0 else UInt16.ofNat result.natAbs
          remoteServerNodeId := 0
          firmwareFilePath := .empty }
        pc := .update }
  | _ => s

/-- One input, and what the node lets out.  What does not belong to the place
`main` is at has no effect. -/
def step (s : UpdateLoop) : Input → Call (UpdateLoop × List Output)
  | .start shared =>
      .ok (if s.pc = .off then { node := Board.startNode shared s.node, pc := .detect } else s, [])
  | .receive env t =>
      if s.pc.polls then do
        let (node, sent) ← s.node.receive id env t
        return ({ s with node }, sent.map Output.response)
      else .ok (s, [])
  | .main => stepMain s
  | .enter now rand => stepAllocation id (.enter now rand) s
  | .look now => stepAllocation id (.look now) s
  | .upgrade refused => .ok (stepUpgrade refused s, [])
  | .request enqueued => stepDownload id (.request enqueued) s
  | .checkWait expired sinkRes => stepDownload id (.checkWait expired sinkRes) s
  | .checkPause elapsed => stepDownload id (.checkPause elapsed) s
  | .finish result => .ok (stepFinish result s, [])
  | .report => .ok (stepReport s, [])
  | .requestReboot => .ok ({ s with node := { s.node with rebootRequested := true } }, [])

/-- A node that was constructed, from its start on. -/
def machine : Machine UpdateLoop (Input × List Output) where
  init s := s = {}
  step s a s' := step id s a.1 = .ok (s', a.2)

end Steps

/-! ## The invariant -/

variable {id : NodeIdentity} {s s' : UpdateLoop} {i : Input} {out : List Output}

/-- What holds between any two steps. -/
structure Inv (s : UpdateLoop) : Prop where
  off : s.pc = .off → s.node.remoteServerNodeId = 0
  allocated : ∀ tid, s.pc = .allocate .done tid →
    s.node.rebootRequested = true ∨ s.node.localNodeId ≠ 0
  inLoop : s.pc.inLoop = true → s.node.localNodeId ≠ 0
  selected : ∀ pc offset, s.pc = .download pc offset → s.node.remoteServerNodeId ≠ 0

/-- A step of the allocation keeps server and path; it ends the allocation
only when there is an ID, or a reboot was requested. -/
theorem allocation_frame {al al' : Node.Allocation.State} {a : Node.Allocation.Input}
    (ha : ∀ env t, a ≠ .receive env t) (h : Node.Allocation.step id al a = .ok al') :
    al.node.SameRequest al'.node ∧
      (al'.pc = .done → al' = al ∨ al'.node.rebootRequested = true ∨ al'.node.localNodeId ≠ 0) := by
  cases a with
  | receive env t => exact absurd rfl (ha env t)
  | reboot =>
      cases hpc : al.pc <;> simp only [Node.Allocation.step, hpc] at h <;> cases h <;>
        exact ⟨.rfl, fun _ => Or.inr (Or.inl rfl)⟩
  | enter now rand =>
      cases hpc : al.pc with
      | outer =>
          simp only [Node.Allocation.step, hpc] at h
          by_cases hdone : al.node.rebootRequested ∨ al.node.localNodeId ≠ 0
          · rw [if_pos hdone] at h
            cases h
            exact ⟨.rfl, fun _ => Or.inr hdone⟩
          · rw [if_neg hdone] at h
            cases h
            exact ⟨.rfl, fun hno => by cases hno⟩
      | inner | done =>
          simp only [Node.Allocation.step, hpc] at h
          cases h
          exact ⟨.rfl, fun _ => Or.inl rfl⟩
  | look now =>
      cases hpc : al.pc with
      | inner =>
          simp only [Node.Allocation.step, hpc] at h
          by_cases hwait : now < al.node.sendNextNodeIdAllocationRequestAt ∧ al.node.localNodeId = 0
          · rw [if_pos hwait] at h
            cases h
            exact ⟨.rfl, fun _ => Or.inl rfl⟩
          rw [if_neg hwait] at h
          by_cases hdone : al.node.localNodeId ≠ 0
          · rw [if_pos hdone] at h
            cases h
            exact ⟨.rfl, fun _ => Or.inr (Or.inr hdone)⟩
          · rw [if_neg hdone] at h
            obtain ⟨payload, -, h⟩ := Call.bind_eq_ok.mp h
            cases Call.pure_eq_ok.mp h
            exact ⟨.rfl, fun hno => by cases hno⟩
      | outer | done =>
          simp only [Node.Allocation.step, hpc] at h
          cases h
          exact ⟨.rfl, fun _ => Or.inl rfl⟩

/-- A step of the download keeps server and path. -/
theorem download_frame {d d' : Download} {i : Download.Input} (hr : Download.Ready d.node)
    (h : Download.step id d i = .ok (d', out)) : d.node.SameRequest d'.node := by
  refine ⟨(Download.step_frame hr h).2, ?_⟩
  cases i with
  | request enqueued =>
      rw [Download.step] at h
      split at h
      · rcases Download.sendRequest_cases hr.localNodeId h with ⟨rfl, -⟩ | ⟨-, rfl⟩
        · rfl
        · split <;> rfl
      · cases h
        rfl
  | receive env t =>
      rw [Download.step] at h
      split at h
      · obtain ⟨-, -, -, ⟨-, -, hresp⟩ | ⟨-, hn⟩⟩ := Download.receive_cases hr h
        · rw [Node.onFileReadResponse_frame hresp]
        · rw [hn]
          split <;> rfl
      · cases h
        rfl
  | checkWait expired sinkRes =>
      rw [Download.step] at h
      split at h
      · rcases Download.checkWait_cases (Except.ok.inj h) with ⟨rfl, -⟩ | ⟨res, -, rfl, -⟩ |
          ⟨-, -, ⟨pc, -, rfl⟩, -⟩ | ⟨-, rfl, -⟩ <;> rfl
      · cases h
        rfl
  | checkPause elapsed =>
      cases h
      split <;> rfl
  | requestReboot =>
      cases h
      rfl

/-- The steps that have an effect, each with its guard. -/
inductive Effect (id : NodeIdentity) (s : UpdateLoop) : Input → UpdateLoop → List Output → Prop
  | idle {i : Input} : Effect id s i s []
  | start {shared : AppShared} : s.pc = .off →
      Effect id s (.start shared) { node := Board.startNode shared s.node, pc := .detect } []
  | receive {env : Env Unit} {t : CanardRxTransfer} {node : Node} {sent : List Sent} :
      s.pc.polls = true → s.node.receive id env t = .ok (node, sent) →
      Effect id s (.receive env t) { s with node } (sent.map Output.response)
  /-- `main` ends, or begins to allocate an ID -/
  | move {pc : UpdatePc} : s.pc ≠ .off → (pc = .exited ∨ pc = .allocate .outer 0) →
      Effect id s .main { s with pc } []
  /-- `main` comes to its update loop -/
  | enter : s.pc ≠ .off → (s.node.localNodeId ≠ 0 ∨
      s.node.rebootRequested = false ∧ ∃ tid, s.pc = .allocate .done tid) →
      Effect id s .main { s with pc := .update } []
  | allocation {i : Input} {al : Node.Allocation.State} {pc : Node.Allocation.Pc} {tid : UInt8} :
      s.pc = .allocate pc tid → s.node.SameRequest al.node →
      (al.pc = .done → (pc = .done ∧ al.node = s.node) ∨ al.node.rebootRequested = true ∨
        al.node.localNodeId ≠ 0) →
      Effect id s i { node := al.node, pc := .allocate al.pc al.nodeIdAllocationTransferId } []
  | upgrade {refused : Option Int} {pc : UpdatePc} : s.pc = .update →
      s.node.remoteServerNodeId ≠ 0 → (pc = .download .request 0 ∨ ∃ result, pc = .report result) →
      Effect id s (.upgrade refused) { s with pc } []
  | download {i : Input} {j : Download.Input} {pc : DownloadPc} {offset : UInt64} {d : Download}
      {out : List Output} : s.pc = .download pc offset →
      Download.step id { node := s.node, pc, offset } j = .ok (d, out) →
      Effect id s i { node := d.node, pc := .download d.pc d.offset } out
  | finish {result : Int} {res : Int} {offset : UInt64} : s.pc = .download (.done res) offset →
      Effect id s (.finish result) { s with pc := .report result } []
  | report {result : Int} : s.pc = .report result → Effect id s .report (stepReport s) []
  | requestReboot :
      Effect id s .requestReboot { s with node := { s.node with rebootRequested := true } } []

theorem effect_main (h : stepMain s = .ok (s', out)) : Effect id s .main s' out := by
  rw [stepMain] at h
  cases hpc : s.pc with
  | detect =>
      have hoff : s.pc ≠ .off := by simp [hpc]
      simp only [hpc] at h
      split at h
      · cases h
        exact .move hoff (Or.inl rfl)
      split at h
      · cases h
        exact .move hoff (Or.inr rfl)
      · cases h
        exact .enter hoff (Or.inl ‹_›)
  | allocate pc tid =>
      have hoff : s.pc ≠ .off := by simp [hpc]
      cases pc with
      | done =>
          simp only [hpc] at h
          split at h
          · cases h
            exact .move hoff (Or.inl rfl)
          · rename_i hreb
            cases h
            exact .enter hoff (Or.inr ⟨by simpa using hreb, tid, hpc⟩)
      | outer | inner =>
          simp only [hpc] at h
          cases h
          exact .idle
  | update =>
      have hoff : s.pc ≠ .off := by simp [hpc]
      simp only [hpc] at h
      obtain ⟨u, -, h⟩ := Call.bind_eq_ok.mp h
      cases Call.pure_eq_ok.mp h
      split
      · exact .move hoff (Or.inl rfl)
      · exact .idle
  | off | download pc offset | report result | exited =>
      simp only [hpc] at h
      cases h
      exact .idle

theorem effect_allocation {a : Node.Allocation.Input} (ha : ∀ env t, a ≠ .receive env t)
    (h : stepAllocation id a s = .ok (s', out)) : Effect id s i s' out := by
  rw [stepAllocation] at h
  cases hpc : s.pc with
  | allocate pc tid =>
      simp only [hpc] at h
      obtain ⟨al, hal, h⟩ := Call.bind_eq_ok.mp h
      cases Call.pure_eq_ok.mp h
      obtain ⟨hsame, hdone⟩ := allocation_frame ha hal
      refine .allocation hpc hsame fun hal' => ?_
      rcases hdone hal' with rfl | hdone
      · exact Or.inl ⟨hal', rfl⟩
      · exact Or.inr hdone
  | off | detect | update | download pc offset | report result | exited =>
      simp only [hpc] at h
      cases h
      exact .idle

theorem effect_download {j : Download.Input} (h : stepDownload id j s = .ok (s', out)) :
    Effect id s i s' out := by
  rw [stepDownload] at h
  cases hpc : s.pc with
  | download pc offset =>
      simp only [hpc] at h
      obtain ⟨⟨d, out₁⟩, hd, h⟩ := Call.bind_eq_ok.mp h
      cases Call.pure_eq_ok.mp h
      exact .download hpc hd
  | off | detect | allocate pc tid | update | report result | exited =>
      simp only [hpc] at h
      cases h
      exact .idle

theorem effect_of_step (h : step id s i = .ok (s', out)) : Effect id s i s' out := by
  cases i with
  | start shared =>
      cases h
      split
      · exact .start ‹_›
      · exact .idle
  | receive env t =>
      rw [step] at h
      split at h
      · obtain ⟨⟨node, sent⟩, hrec, h⟩ := Call.bind_eq_ok.mp h
        cases Call.pure_eq_ok.mp h
        exact .receive ‹_› hrec
      · cases h
        exact .idle
  | main => exact effect_main h
  | enter now rand => exact effect_allocation (by intro _ _ h; cases h) h
  | look now => exact effect_allocation (by intro _ _ h; cases h) h
  | upgrade refused =>
      cases h
      unfold stepUpgrade
      split
      · rename_i hguard
        cases refused with
        | some result => exact .upgrade hguard.1 hguard.2.2 (Or.inr ⟨result, rfl⟩)
        | none => exact .upgrade hguard.1 hguard.2.2 (Or.inl rfl)
      · exact .idle
  | request enqueued => exact effect_download h
  | checkWait expired sinkRes => exact effect_download h
  | checkPause elapsed => exact effect_download h
  | finish result =>
      cases h
      rw [stepFinish]
      split
      · exact .finish ‹_›
      · exact .idle
  | report =>
      cases h
      cases hpc : s.pc with
      | report result => exact .report hpc
      | off | detect | allocate pc tid | update | download pc offset | exited =>
          have hidle : stepReport s = s := by rw [stepReport, hpc]
          rw [hidle]
          exact .idle
  | requestReboot =>
      cases h
      exact .requestReboot

/-- Outside the update loop, and not behind the allocation. -/
theorem Inv.outside {node : Node} {pc : UpdatePc} (hoff : pc ≠ .off)
    (hdone : ∀ tid, pc ≠ .allocate .done tid) (hloop : pc.inLoop = false) :
    Inv { node, pc } where
  off h := absurd h hoff
  allocated tid h := absurd h (hdone tid)
  inLoop h := by
    have h' : pc.inLoop = true := h
    rw [hloop] at h'
    cases h'
  selected pc' offset h := by
    have h' : pc = .download pc' offset := h
    rw [h'] at hloop
    cases hloop

/-- In the update loop. -/
theorem Inv.inside {node : Node} {pc : UpdatePc} (hid : node.localNodeId ≠ 0)
    (hloop : pc.inLoop = true)
    (hsel : ∀ pc' offset, pc = .download pc' offset → node.remoteServerNodeId ≠ 0) :
    Inv { node, pc } where
  off h := by
    have h' : pc = .off := h
    rw [h'] at hloop
    cases hloop
  allocated tid h := by
    have h' : pc = .allocate .done tid := h
    rw [h'] at hloop
    cases hloop
  inLoop _ := hid
  selected := hsel

theorem inv_init (h : (machine id).init s) : Inv s := by
  cases h
  constructor
  case off => exact fun _ => rfl
  case inLoop => exact fun hloop => absurd hloop Bool.false_ne_true
  all_goals intros; contradiction

theorem inv_receive (hI : Inv s) {env : Env Unit} {t : CanardRxTransfer} {node : Node}
    {sent : List Sent} (hpolls : s.pc.polls = true)
    (h : s.node.receive id env t = .ok (node, sent)) : Inv { s with node } := by
  obtain ⟨hid, hsel⟩ := Node.receive_frame h
  constructor
  case off =>
      intro hoff
      have hoff' : s.pc = .off := hoff
      rw [hoff'] at hpolls
      cases hpolls
  case allocated =>
      intro tid hdone
      have hdone' : s.pc = .allocate .done tid := hdone
      rw [hdone'] at hpolls
      cases hpolls
  case inLoop =>
      intro hloop
      have h0 := hI.inLoop hloop
      show node.localNodeId ≠ 0
      rw [hid h0]
      exact h0
  case selected =>
      intro pc offset hdown
      have h0 := hI.selected pc offset hdown
      show node.remoteServerNodeId ≠ 0
      rw [(hsel h0).1]
      exact h0

/-- Every step keeps the invariant. -/
theorem inv_step (hI : Inv s) (h : Effect id s i s' out) : Inv s' := by
  cases h with
  | idle => exact hI
  | start hoff => exact .outside (by decide) (by intro _ h; cases h) rfl
  | receive hpolls hrec => exact inv_receive hI hpolls hrec
  | move hoff hpc =>
      rcases hpc with rfl | rfl
      · exact .outside (by decide) (by intro _ h; cases h) rfl
      · exact .outside (by intro h; cases h) (by intro _ h; cases h) rfl
  | enter hoff hguard =>
      refine .inside ?_ rfl (by intro _ _ h; cases h)
      rcases hguard with h0 | ⟨hreb, tid, hdone⟩
      · exact h0
      · rcases hI.allocated tid hdone with hyes | h0
        · rw [hreb] at hyes
          cases hyes
        · exact h0
  | @allocation i al pc tid hpc hsame hdone =>
      constructor
      case off => exact fun h => by cases h
      case inLoop => exact fun h => absurd h Bool.false_ne_true
      case selected => exact fun _ _ h => by cases h
      case allocated =>
        intro tid' h
        obtain ⟨hpc', -⟩ := UpdatePc.allocate.inj h
        rcases hdone hpc' with ⟨rfl, hnode⟩ | hdone
        · have hold := hI.allocated tid hpc
          rw [← hnode] at hold
          exact hold
        · exact hdone
  | upgrade hpc hsel hnext =>
      have h0 : s.node.localNodeId ≠ 0 := hI.inLoop (by rw [hpc]; rfl)
      rcases hnext with rfl | ⟨result, rfl⟩
      · exact .inside h0 rfl (fun _ _ _ => hsel)
      · exact .inside h0 rfl (fun _ _ _ => hsel)
  | download hpc hd =>
      have hready : Download.Ready s.node := ⟨hI.inLoop (by rw [hpc]; rfl), hI.selected _ _ hpc⟩
      have hready' := Download.step_ready hready hd
      exact .inside hready'.localNodeId rfl fun _ _ _ => hready'.remoteServerNodeId
  | finish hpc =>
      have h0 : s.node.localNodeId ≠ 0 := hI.inLoop (by rw [hpc]; rfl)
      exact .inside h0 rfl (by intro _ _ h; cases h)
  | report hpc =>
      have h0 : s.node.localNodeId ≠ 0 := hI.inLoop (by rw [hpc]; rfl)
      rw [stepReport, hpc]
      exact .inside h0 rfl (by intro _ _ h; cases h)
  | requestReboot => exact ⟨hI.off, fun _ _ => Or.inl rfl, hI.inLoop, hI.selected⟩

theorem inv_reachable (h : (machine id).Reachable s) : Inv s := by
  refine Machine.Reachable.invariant (fun s h0 => inv_init h0) (fun s a s' _ hI hs => ?_) h
  exact inv_step hI (effect_of_step hs)

/-! ## An accepted request -/

/-- The step is not the one that clears server and path. -/
def Uncleared (s : UpdateLoop) (a : Input × List Output) (_ : UpdateLoop) : Prop :=
  a.1 = .report → ∀ result, s.pc ≠ .report result

/-- Every other step keeps a server that was selected, and the path. -/
theorem step_keeps (hI : Inv s) (hsel : s.node.remoteServerNodeId ≠ 0)
    (hno : i = .report → ∀ result, s.pc ≠ .report result) (h : Effect id s i s' out) :
    s.node.SameRequest s'.node := by
  cases h with
  | idle | move _ _ | enter _ _ | upgrade _ _ _ | finish _ | requestReboot => exact .rfl
  | start hoff => exact absurd (hI.off hoff) hsel
  | receive hpolls hrec => exact (Node.receive_frame hrec).2 hsel
  | allocation hpc hsame hdone => exact hsame
  | download hpc hd => exact download_frame ⟨hI.inLoop (by rw [hpc]; rfl), hsel⟩ hd
  | report hpc => exact absurd hpc (hno rfl _)

/-- All requests of a download are those for the data at the current offset. -/
theorem download_requests {d d' : Download} {j : Download.Input} (hr : Download.Ready d.node)
    (h : Download.step id d j = .ok (d', out)) :
    ∀ q ∈ Download.requestsOf out, q = d.fileReadRequest := by
  have hnone : ∀ q ∈ Download.requestsOf [], q = d.fileReadRequest := by
    intro q hq
    cases hq
  cases j with
  | request enqueued =>
      rw [Download.step] at h
      split at h
      · rcases Download.sendRequest_cases hr.localNodeId h with ⟨-, rfl⟩ | ⟨rfl, -⟩
        · exact hnone
        · exact fun q hq => List.mem_singleton.mp hq
      · cases h
        exact hnone
  | receive env t =>
      rw [Download.step] at h
      split at h
      · rw [(Download.receive_cases hr h).2.1]
        exact hnone
      · cases h
        exact hnone
  | checkWait expired sinkRes =>
      rw [Download.step] at h
      split at h
      · rcases Download.checkWait_cases (Except.ok.inj h) with ⟨-, rfl⟩ | ⟨res, -, -, rfl⟩ |
          ⟨-, -, -, rfl⟩ | ⟨-, -, rfl⟩ <;> exact hnone
      · cases h
        exact hnone
  | checkPause elapsed =>
      cases h
      exact hnone
  | requestReboot =>
      cases h
      exact hnone

/-- Every FileRead request asks for the data at the offset of the download; it
goes to the node's server with the node's path. -/
theorem step_requests (hI : Inv s) (h : Effect id s i s' out) :
    ∀ q ∈ Download.requestsOf out, q.destinationNodeId = s.node.remoteServerNodeId ∧
      ∃ pc offset, s.pc = .download pc offset ∧
        q.payload = leBytes 5 offset.toNat ++ s.node.firmwareFilePath.chars := by
  cases h with
  | receive hpolls hrec =>
      intro q hq
      rw [Download.requestsOf_response] at hq
      cases hq
  | @download i j pc offset d out hpc hd =>
      intro q hq
      have hready : Download.Ready s.node := ⟨hI.inLoop (by rw [hpc]; rfl), hI.selected _ _ hpc⟩
      rw [download_requests hready hd q hq]
      exact ⟨rfl, pc, offset, hpc, rfl⟩
  | idle | start _ | move _ _ | enter _ _ | allocation _ _ _ | upgrade _ _ _ | finish _
  | report _ | requestReboot =>
      intro q hq
      cases hq

/-- A BeginFirmwareUpdate request while a server is selected changes nothing
and is answered with "error = 2", in whatever state the bootloader is. -/
theorem begin_answered (hsel : s.node.remoteServerNodeId ≠ 0) (env : Env Unit)
    {t : CanardRxTransfer} (hpolls : s.pc.polls = true) (hadm : s.node.Admits t)
    (htype : t.transferType = .request) (hdata : t.dataTypeId = BeginFirmwareUpdate.dataTypeId)
    (hprio : t.priority ≤ 31) :
    step id s (.receive env t) = .ok (s, [.response {
      destinationNodeId := t.sourceNodeId
      dataTypeId := 40
      transferId := t.transferId
      priority := t.priority
      isRequest := false
      payload := [2] }]) := by
  have hid : ¬s.node.localNodeId = canardBroadcastNodeId := by
    intro h0
    rw [Node.Admits, Node.shouldAcceptTransfer, if_pos h0, htype] at hadm
    simp at hadm
  have hinfo : ¬(t.transferType = .request ∧ t.dataTypeId = GetNodeInfo.dataTypeId) :=
    fun h => absurd (hdata.symm.trans h.2) (by decide)
  have hrestart : ¬(t.transferType = .request ∧ t.dataTypeId = RestartNode.dataTypeId) :=
    fun h => absurd (hdata.symm.trans h.2) (by decide)
  have hprio' : ¬t.priority > canardTransferPriorityLowest := UInt8.not_lt.mpr hprio
  have hrec : Node.onTransferReception id env t s.node () =
      .ok (s.node, (env.getState ()).1, Node.respond env t s.node 40 [2]) := by
    rw [Node.onTransferReception, if_neg (fun h => hid h.1), if_neg hinfo, if_neg hrestart,
      if_pos ⟨htype, hdata⟩, Node.onBeginFirmwareUpdate_of_selected hsel]
    rfl
  have hsent : Node.respond env t s.node 40 [2] = [{
      destinationNodeId := t.sourceNodeId
      dataTypeId := 40
      transferId := t.transferId
      priority := t.priority
      isRequest := false
      payload := [2] }] := by
    rw [Node.respond, canardRequestOrRespond, if_neg hprio', if_neg hid]
    rfl
  rw [step, if_pos hpolls, Node.receive, if_pos hadm, hrec, hsent]
  rfl

/-- Along a run without the step that clears them, server and path stay. -/
theorem run_keeps (hI : Inv s) (hsel : s.node.remoteServerNodeId ≠ 0)
    {as : List (Input × List Output)} (h : ((machine id).restrict Uncleared).Run s as s') :
    Inv s' ∧ s.node.SameRequest s'.node := by
  induction h with
  | nil => exact ⟨hI, .rfl⟩
  | @cons s s₁ s' a as hst _ ih =>
      have heff : Effect id s a.1 s₁ a.2 := effect_of_step hst.1
      have hsame := step_keeps hI hsel hst.2 heff
      obtain ⟨hI', hsame'⟩ := ih (inv_step hI heff) (by rw [hsame.1]; exact hsel)
      exact ⟨hI', hsame.trans hsame'⟩

/-- From the moment the node has a server until the end of the update, no step
changes server or path, every BeginFirmwareUpdate request is answered with
"error = 2", and every FileRead request goes to that server with that path. -/
theorem request_immutable (hs : (machine id).Reachable s) (hsel : s.node.remoteServerNodeId ≠ 0)
    {as : List (Input × List Output)} (h : ((machine id).restrict Uncleared).Run s as s') :
    s'.node.remoteServerNodeId = s.node.remoteServerNodeId ∧
      s'.node.firmwareFilePath = s.node.firmwareFilePath ∧
      (∀ env t, s'.pc.polls = true → s'.node.Admits t → t.transferType = .request →
        t.dataTypeId = BeginFirmwareUpdate.dataTypeId → t.priority ≤ 31 →
          step id s' (.receive env t) = .ok (s', [.response {
            destinationNodeId := t.sourceNodeId
            dataTypeId := 40
            transferId := t.transferId
            priority := t.priority
            isRequest := false
            payload := [2] }])) ∧
      ∀ i s'' out, step id s' i = .ok (s'', out) → ∀ q ∈ Download.requestsOf out,
        q.destinationNodeId = s.node.remoteServerNodeId ∧
          ∃ pc offset, s'.pc = .download pc offset ∧
            q.payload = leBytes 5 offset.toNat ++ s.node.firmwareFilePath.chars := by
  obtain ⟨hI', hremote, hpath⟩ := run_keeps (inv_reachable hs) hsel h
  refine ⟨hremote, hpath, fun env t hpolls hadm htype hdata hprio => ?_,
    fun i s'' out hst q hq => ?_⟩
  · exact begin_answered (by rw [hremote]; exact hsel) env hpolls hadm htype hdata hprio
  · have hreq := step_requests hI' (effect_of_step hst) q hq
    rw [hremote, hpath] at hreq
    exact hreq

/-- A node that is started with an ID, a server and a path. -/
def started : UpdateLoop where
  node :=
    { localNodeId := 10
      remoteServerNodeId := 5
      firmwareFilePath := { chars := [0x66, 0x77] } }
  pc := .detect

/-- The same in its update loop. -/
def waiting : UpdateLoop where
  node := started.node
  pc := .update

/-- The same in its download. -/
def downloading : UpdateLoop where
  node := started.node
  pc := .download .request 0

theorem reachable_started : (machine {}).Reachable started := by
  have hinit : (machine {}).Reachable {} := .init rfl
  exact hinit.step (a := (.start {
    uavcanNodeId := 10
    uavcanFwServerNodeId := 5
    uavcanFileName := { chars := [0x66, 0x77] } }, [])) rfl

theorem run_downloading : ((machine {}).restrict Uncleared).Run started
    [(.main, []), (.upgrade none, [])] downloading := by
  have h₁ : ((machine {}).restrict Uncleared).step started (.main, []) waiting :=
    ⟨rfl, fun h => by cases h⟩
  have h₂ : ((machine {}).restrict Uncleared).step waiting (.upgrade none, []) downloading :=
    ⟨rfl, fun h => by cases h⟩
  exact .cons h₁ (.cons h₂ .nil)

/-- It asks its server for the file. -/
theorem request_immutable_started :
    Call.ReturnsWith (step {} downloading (.request 1)) fun r =>
      (Download.requestsOf r.2).length = 1 ∧ ∀ q ∈ Download.requestsOf r.2,
        q.destinationNodeId = 5 ∧ ∃ pc offset, downloading.pc = .download pc offset ∧
          q.payload = leBytes 5 offset.toNat ++ [0x66, 0x77] := by
  have hone : Call.ReturnsWith (step {} downloading (.request 1)) fun r =>
      (Download.requestsOf r.2).length = 1 := by decide +kernel
  obtain ⟨r, hr, hlen⟩ := hone
  have h := request_immutable reachable_started (by decide) run_downloading
  exact ⟨r, hr, hlen, h.2.2.2 _ r.1 r.2 hr⟩

end UpdateLoop

end UavcanAdapter
