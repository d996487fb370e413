/-
# `Node.PathTransport` — the path from the request to the server

The handler copies the path out of a BeginFirmwareUpdate request, byte by
byte through the scalar decoder, and the download puts it behind the offset
in each FileRead request.

A request without any payload is accepted as well.  `payload_len - 1U` is
2^32 − 1 there, so that the loop in the handler runs 200 times and leaves
200 zero bytes for a path: `path_transport` has the empty payload as its only
exception.
-/
import UavcanAdapter.Node.UpdateLoop

namespace UavcanAdapter

open Base

namespace UpdateLoop

open Download (Output)

variable {id : NodeIdentity} {env : Env Unit} {t : CanardRxTransfer} {s s₁ s₂ s₃ : UpdateLoop}
  {i : Input} {out₁ out : List Output}

/-- The node takes the path out of the request it accepts. -/
theorem accepted_path (hsel : s.node.remoteServerNodeId = 0)
    (hacc : step id s (.receive env t) = .ok (s₁, out₁))
    (hsel₁ : s₁.node.remoteServerNodeId ≠ 0) :
    s₁.node.firmwareFilePath = Node.copyPath t := by
  rw [step] at hacc
  split at hacc
  · obtain ⟨⟨node, sent⟩, hrec, hacc⟩ := Call.bind_eq_ok.mp hacc
    cases Call.pure_eq_ok.mp hacc
    exact Node.receive_selects hsel hsel₁ hrec
  · cases hacc
    exact absurd hsel hsel₁

/-- Between acceptance and the end of the update every FileRead request holds
the offset of the download and the path of the accepted request. -/
theorem requests_path (hs : (machine id).Reachable s) (hsel : s.node.remoteServerNodeId = 0)
    (hacc : step id s (.receive env t) = .ok (s₁, out₁))
    (hsel₁ : s₁.node.remoteServerNodeId ≠ 0) {as : List (Input × List Output)}
    (h : ((machine id).restrict Uncleared).Run s₁ as s₂)
    (hreq : step id s₂ i = .ok (s₃, out)) {q : Sent} (hq : q ∈ Download.requestsOf out) :
    ∃ pc offset, s₂.pc = .download pc offset ∧
      q.payload = leBytes 5 offset.toNat ++ (Node.copyPath t).chars := by
  have hI₁ : Inv s₁ := inv_step (inv_reachable hs) (effect_of_step hacc)
  obtain ⟨hI₂, -, hpath⟩ := run_keeps hI₁ hsel₁ h
  have hreq' := (step_requests hI₂ (effect_of_step hreq) q hq).2
  rw [hpath, accepted_path hsel hacc hsel₁] at hreq'
  exact hreq'

/-- The path of a request is what stands behind its first byte, as far as it
fits, unless there is no first byte. -/
theorem copyPath_eq_slice_iff :
    (Node.copyPath t).chars = slice t.payload 1 200 ↔ t.payload ≠ [] := by
  constructor
  · intro h hnil
    have hlen := congrArg List.length h
    rw [Node.copyPath_of_nil hnil, List.length_replicate, length_slice, hnil] at hlen
    exact absurd hlen (by decide)
  · exact Node.copyPath_of_ne_nil

/-- Each FileRead request of the download that follows an accepted request
fits into its buffer, and it carries the path of the request, cut off at 200
bytes, behind the offset: if and only if the request was not empty. -/
theorem path_transport (hs : (machine id).Reachable s) (hsel : s.node.remoteServerNodeId = 0)
    (hacc : step id s (.receive env t) = .ok (s₁, out₁))
    (hsel₁ : s₁.node.remoteServerNodeId ≠ 0) {as : List (Input × List Output)}
    (h : ((machine id).restrict Uncleared).Run s₁ as s₂)
    (hreq : step id s₂ i = .ok (s₃, out)) {q : Sent} (hq : q ∈ Download.requestsOf out) :
    q.payload.length ≤ FileRead.maxSizeBytesRequest ∧
      ∃ pc offset, s₂.pc = .download pc offset ∧
        (q.payload = leBytes 5 offset.toNat ++ slice t.payload 1 200 ↔ t.payload ≠ []) := by
  obtain ⟨pc, offset, hpc, hpay⟩ := requests_path hs hsel hacc hsel₁ h hreq hq
  refine ⟨?_, pc, offset, hpc, ?_⟩
  · have hlen := (Node.copyPath t).length_le
    rw [hpay, List.length_append, length_leBytes]
    show 5 + (Node.copyPath t).chars.length ≤ 206
    omega
  · rw [hpay, List.append_cancel_left_eq, copyPath_eq_slice_iff]

/-- A download that is not interrupted asks for the data at its offset. -/
theorem requests_of_download {offset : UInt64} {enqueued : Int}
    (hpc : s.pc = .download .request offset) (hid : s.node.localNodeId ≠ 0)
    (hreb : s.node.rebootRequested = false) :
    Call.ReturnsWith (step id s (.request enqueued)) fun r =>
      (Download.requestsOf r.2).map Sent.payload =
        [leBytes 5 offset.toNat ++ s.node.firmwareFilePath.chars] := by
  have hsend : Download.step id { node := s.node, pc := .request, offset } (.request enqueued) = _ :=
    Download.sendRequest_eq hid hreb enqueued
  rw [step, stepDownload, hpc]
  simp only
  rw [hsend]
  exact ⟨_, rfl, rfl⟩

/-! ### Two requests -/

/-- A request of node 5 that leaves the choice of the server open. -/
def beginRequest (payload : List UInt8) (h : payload.length < 2 ^ 16) : CanardRxTransfer where
  payload := payload
  dataTypeId := BeginFirmwareUpdate.dataTypeId
  transferType := .request
  transferId := 0
  sourceNodeId := 5
  payload_lt := h

/-- A node with an ID in its update loop. -/
def idle : UpdateLoop where
  node := { localNodeId := 10 }
  pc := .update

/-- The node once it has node 5 for a server, and the path of `t`. -/
def accepted (t : CanardRxTransfer) (pc : UpdatePc) : UpdateLoop where
  node :=
    { localNodeId := 10
      remoteServerNodeId := 5
      firmwareFilePath := Node.copyPath t }
  pc := pc

theorem reachable_idle : (machine {}).Reachable idle := by
  have hstart : (machine {}).step {} (.start { uavcanNodeId := 10 }, [])
      { node := { localNodeId := 10 }, pc := .detect } := rfl
  have hmain : (machine {}).step { node := { localNodeId := 10 }, pc := .detect } (.main, [])
      idle := rfl
  exact ((Machine.Reachable.init rfl).step hstart).step hmain

theorem accepted_localNodeId {pc : UpdatePc} : (accepted t pc).node.localNodeId ≠ 0 := by
  show (10 : UInt8) ≠ 0
  decide

theorem run_accepted : ((machine {}).restrict Uncleared).Run (accepted t .update)
    [(.upgrade none, [])] (accepted t (.download .request 0)) := by
  have hup : ((machine {}).restrict Uncleared).step (accepted t .update) (.upgrade none, [])
      (accepted t (.download .request 0)) := ⟨rfl, fun h => by cases h⟩
  exact .cons hup .nil

/-- A server and a path of two bytes. -/
def named : CanardRxTransfer := beginRequest [0, 0x66, 0x77] (by decide)

/-- No payload at all. -/
def empty : CanardRxTransfer := beginRequest [] CanardRxTransfer.length_nil_lt

theorem step_named : step {} idle (.receive quiet named) =
    .ok (accepted named .update, (Node.respond quiet named idle.node 40 [0]).map .response) := by
  rfl

theorem step_empty : step {} idle (.receive quiet empty) =
    .ok (accepted empty .update, (Node.respond quiet empty idle.node 40 [0]).map .response) := by
  rfl

/-- A path of two bytes is asked for as it is. -/
theorem path_transport_named :
    Call.ReturnsWith (step {} (accepted named (.download .request 0)) (.request 1)) fun r =>
      (Download.requestsOf r.2).length = 1 ∧ ∀ q ∈ Download.requestsOf r.2,
        q.payload.length ≤ FileRead.maxSizeBytesRequest ∧
          ∃ pc offset, (accepted named (.download .request 0)).pc = .download pc offset ∧
            (q.payload = leBytes 5 offset.toNat ++ slice named.payload 1 200 ↔
              named.payload ≠ []) := by
  obtain ⟨r, hr, hpayloads⟩ :
      Call.ReturnsWith (step {} (accepted named (.download .request 0)) (.request 1)) fun r =>
        (Download.requestsOf r.2).map Sent.payload = [leBytes 5 0 ++ (Node.copyPath named).chars] :=
    requests_of_download rfl accepted_localNodeId rfl
  have hlen := congrArg List.length hpayloads
  rw [List.length_map] at hlen
  refine ⟨r, hr, hlen, fun q hq => ?_⟩
  exact path_transport reachable_idle rfl step_named (by decide) run_accepted hr hq

/-- An empty request is accepted, and 200 zero bytes are asked for. -/
theorem path_transport_empty :
    (machine {}).Reachable idle ∧ idle.node.remoteServerNodeId = 0 ∧
      step {} idle (.receive quiet empty) =
        .ok (accepted empty .update, (Node.respond quiet empty idle.node 40 [0]).map .response) ∧
      ((machine {}).restrict Uncleared).Run (accepted empty .update)
        [(.upgrade none, [])] (accepted empty (.download .request 0)) ∧
      Call.ReturnsWith (step {} (accepted empty (.download .request 0)) (.request 1)) fun r =>
        (Download.requestsOf r.2).map Sent.payload = [leBytes 5 0 ++ List.replicate 200 0] ∧
          leBytes 5 0 ++ List.replicate 200 0 ≠ leBytes 5 0 ++ slice empty.payload 1 200 := by
  refine ⟨reachable_idle, rfl, step_empty, run_accepted, ?_⟩
  obtain ⟨r, hr, hpayloads⟩ :
      Call.ReturnsWith (step {} (accepted empty (.download .request 0)) (.request 1)) fun r =>
        (Download.requestsOf r.2).map Sent.payload = [leBytes 5 0 ++ (Node.copyPath empty).chars] :=
    requests_of_download rfl accepted_localNodeId rfl
  rw [Node.copyPath_of_nil rfl] at hpayloads
  refine ⟨r, hr, hpayloads, fun heq => ?_⟩
  rw [← Node.copyPath_of_nil (t := empty) rfl, List.append_cancel_left_eq] at heq
  exact copyPath_eq_slice_iff.mp heq rfl

end UpdateLoop

end UavcanAdapter
