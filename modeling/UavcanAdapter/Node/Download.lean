/-
# `Node.Download` — the downloader

`UAVCANFirmwareUpdateNode::download` as a state machine.  It gives control
to `poll` in two loops, while it waits for a response and while it pauses
between two requests; there any transfer may come in, and the clock decides
when a loop ends.  So the inputs of the machine are the passes of the loops
and what happens in them, and `DownloadPc` is the loop it is in.

`Download.step` returns on every input as long as the node has an ID
(`step_returns`); `receive_cases` says what a received transfer can change
during a download.
-/
import UavcanAdapter.Base.Machine
import UavcanAdapter.Node.Robustness

namespace UavcanAdapter

open Base

def errTimeout : Int := 30001
def errInterrupted : Int := 30002

/-- `std::numeric_limits<int>::max()`: no response so far. -/
def readPending : Int := 2 ^ 31 - 1

/-- Where `download` is. -/
inductive DownloadPc
  /-- in front of the next request -/
  | request
  /-- in the loop that awaits the response -/
  | wait
  /-- in the loop that waits to avoid bus congestion -/
  | pause
  /-- it returned -/
  | done (res : Int)
deriving DecidableEq, Repr

/-- The node and the variables of `download`. -/
structure Download where
  node : Node
  pc : DownloadPc := .request
  offset : UInt64 := 0
deriving DecidableEq

namespace Download

/-- What moves the downloader. -/
inductive Input
  /-- the next request, with the result of `enqueueTxFrames` -/
  | request (enqueued : Int)
  /-- `poll` got a transfer off the bus -/
  | receive (env : Env Unit) (t : CanardRxTransfer)
  /-- a pass of the loop that awaits the response comes to its end: whether
  the deadline has passed, and what the sink returns if it is called -/
  | checkWait (expired : Bool) (sinkRes : Int)
  /-- a pass of the loop that avoids bus congestion: whether it is over -/
  | checkPause (elapsed : Bool)
  /-- another thread requests a reboot -/
  | requestReboot

/-- What the downloader lets out. -/
inductive Output
  /-- a FileRead request for the transmit queue -/
  | request (s : Sent)
  /-- the response to a received transfer, for the transmit queue -/
  | response (s : Sent)
  /-- `handleNextDataChunk` is called -/
  | chunk (data : List UInt8)
deriving DecidableEq, Repr

/-- The top of the loop, up to the one that awaits the response. -/
def sendRequest (enqueued : Int) (d : Download) : Call (Download × List Output) := do
  let n := d.node
  if n.rebootRequested then
    return ({ d with pc := .done (-errInterrupted) }, [])
  let buffer := List.replicate FileRead.maxSizeBytesRequest 0
  let buffer ← Node.encodeAt buffer 0 40 d.offset.toNat
  let buffer ← Call.storeAt buffer 5 n.firmwareFilePath.chars
  let (res, fileReadTransferId, sent) := canardRequestOrRespond n.localNodeId enqueued
    { destinationNodeId := n.remoteServerNodeId
      dataTypeId := 48
      transferId := n.fileReadTransferId
      priority := canardTransferPriorityLow
      isRequest := true
      payload := buffer.take (n.firmwareFilePath.chars.length + 5) }
  let n := { n with fileReadTransferId }
  let out := sent.toList.map Output.request
  if res < 0 then
    return ({ d with node := n, pc := .done res }, out)
  return ({ d with node := { n with readResult := readPending }, pc := .wait }, out)

/-- A received transfer goes through the filter into the handler. -/
def receive (id : NodeIdentity) (env : Env Unit) (t : CanardRxTransfer) (d : Download) :
    Call (Download × List Output) :=
  if d.node.Admits t then do
    let (n, _, sent) ← Node.onTransferReception id env t d.node ()
    return ({ d with node := n }, sent.map Output.response)
  else .ok (d, [])

/-- The end of a pass of the loop that awaits the response, and what follows
when the response is there. -/
def checkWait (expired : Bool) (sinkRes : Int) (d : Download) : Download × List Output :=
  let readResult := d.node.readResult
  if expired then ({ d with pc := .done (-errTimeout) }, [])
  else if readResult = readPending then (d, [])
  else if readResult < 0 then ({ d with pc := .done readResult }, [])
  else if readResult > 0 then
    let d := { d with offset := d.offset + UInt64.ofNat readResult.toNat }
    let out := [Output.chunk (d.node.readBuffer.toList.take readResult.toNat)]
    if sinkRes < 0 then ({ d with pc := .done sinkRes }, out) else ({ d with pc := .pause }, out)
  else ({ d with pc := .done 0 }, [])

/-- One input.  What does not belong to the place `download` is at has no
effect. -/
def step (id : NodeIdentity) (d : Download) : Input → Call (Download × List Output)
  | .request enqueued => if d.pc = .request then d.sendRequest enqueued else .ok (d, [])
  | .receive env t =>
      if d.pc = .wait ∨ d.pc = .pause then d.receive id env t else .ok (d, [])
  | .checkWait expired sinkRes =>
      if d.pc = .wait then .ok (d.checkWait expired sinkRes) else .ok (d, [])
  | .checkPause elapsed =>
      .ok (if d.pc = .pause ∧ elapsed = true then { d with pc := .request } else d, [])
  | .requestReboot => .ok ({ d with node := { d.node with rebootRequested := true } }, [])

/-- The chunks among the outputs. -/
def chunksOf : List Output → List (List UInt8) :=
  List.filterMap fun
    | .chunk data => some data
    | .request _ | .response _ => none

/-- The requests among the outputs. -/
def requestsOf : List Output → List Sent :=
  List.filterMap fun
    | .request s => some s
    | .chunk _ | .response _ => none

end Download

/-! ## The handler during a download -/

namespace Node

variable {β : Type} {id : NodeIdentity} {env : Env β} {t : CanardRxTransfer} {n n' : Node}
  {bl bl' : β} {sent : List Sent}

/-- A FileRead response. -/
def IsFileReadResponse (t : CanardRxTransfer) : Prop :=
  t.transferType = .response ∧ t.dataTypeId = FileRead.dataTypeId

instance decIsFileReadResponse (t : CanardRxTransfer) : Decidable (IsFileReadResponse t) :=
  inferInstanceAs (Decidable (_ ∧ _))

/-- A RestartNode request with the right magic number. -/
def RequestsRestart (t : CanardRxTransfer) : Prop :=
  t.transferType = .request ∧ t.dataTypeId = RestartNode.dataTypeId ∧
    (canardDecodeScalar t.payload 0 40).getD 0 = 0xACCE551B1E

instance decRequestsRestart (t : CanardRxTransfer) : Decidable (RequestsRestart t) :=
  inferInstanceAs (Decidable (_ ∧ _ ∧ _))

/-- A node that has an ID and has selected a server changes its state in two
ways only: it takes the FileRead response it waits for, or notes that a
restart was requested. -/
theorem reception_cases (hid : n.localNodeId ≠ 0) (hrem : n.remoteServerNodeId ≠ 0)
    (h : onTransferReception id env t n bl = .ok (n', bl', sent)) :
    (IsFileReadResponse t ∧ awaits t n ∧ onFileReadResponse t n = .ok n') ∨
    (¬(IsFileReadResponse t ∧ awaits t n) ∧
      n' = if RequestsRestart t then { n with rebootRequested := true } else n) := by
  have hresponse : ∀ {p : Prop}, t.transferType = .request → ¬(IsFileReadResponse t ∧ p) := by
    intro p hreq hr
    cases hreq.symm.trans hr.1.1
  cases handled_of_reception h with
  | allocation h0 hb hd hn' => exact absurd h0 hid
  | info hreq hd =>
      refine Or.inr ⟨hresponse hreq, ?_⟩
      rw [if_neg]
      rintro ⟨-, hr, -⟩
      cases hd.symm.trans hr
  | restart hreq hd =>
      refine Or.inr ⟨hresponse hreq, ?_⟩
      by_cases hmagic : (canardDecodeScalar t.payload 0 40).getD 0 = 0xACCE551B1E
      · rw [if_pos ⟨hreq, hd, hmagic⟩]
        simp only [onRestartNode, if_pos hmagic]
      · rw [if_neg (fun hr => hmagic hr.2.2)]
        simp only [onRestartNode, if_neg hmagic]
  | begin hreq hd hbegin =>
      -- a second update request is turned down
      rw [onBeginFirmwareUpdate_of_selected hrem] at hbegin
      cases hbegin
      refine Or.inr ⟨hresponse hreq, ?_⟩
      rw [if_neg]
      rintro ⟨-, hr, -⟩
      cases hd.symm.trans hr
  | read htype hd hawaits hn' => exact Or.inl ⟨⟨htype, hd⟩, hawaits, hn'⟩
  | ignored hinfo hrestart hbegin hread =>
      refine Or.inr ⟨fun hr => hread ⟨hr.1.1, hr.1.2, hr.2⟩, ?_⟩
      rw [if_neg (fun hr => hrestart ⟨hr.1, hr.2.1⟩)]

/-- The handler writes to two members when it takes a FileRead response. -/
theorem onFileReadResponse_frame (h : onFileReadResponse t n = .ok n') :
    n' = { n with readResult := n'.readResult, readBuffer := n'.readBuffer } := by
  rw [onFileReadResponse] at h
  simp only at h
  split at h
  · cases Call.pure_eq_ok.mp h
    rfl
  · obtain ⟨buffer, -, h⟩ := Call.bind_eq_ok.mp h
    cases Call.pure_eq_ok.mp h
    rfl

/-- The copy loop copies the bytes behind the error code. -/
theorem copyData_slice : ∀ (k i : Nat) (buffer : Vector UInt8 256), i + k ≤ 256 →
    2 + i + k ≤ t.payload.length → buffer.toList.take i = slice t.payload 2 i →
    ∃ buffer', copyData t k i buffer = .ok buffer' ∧
      buffer'.toList.take (i + k) = slice t.payload 2 (i + k)
  | 0, _, buffer, _, _, hcopied => ⟨buffer, rfl, hcopied⟩
  | k + 1, i, buffer, hsize, hlen, hcopied => by
      have hidx : 2 + i < t.payload.length := by omega
      have hoff : 16 + i * 8 = 8 * (2 + i) := by omega
      rw [copyData, hoff, canardDecodeScalar_byte hidx, Call.modify_of_lt (by omega), Call.ok_bind,
        show i + (k + 1) = i + 1 + k by omega]
      refine copyData_slice k (i + 1) _ (by omega) (by omega) ?_
      rw [Vector.toList_set]
      simpa using take_set_eq_slice (by simp; omega) hidx hcopied

/-- The error code is the first two bytes. -/
theorem responseError_eq (h : 2 ≤ t.payload.length) :
    (canardDecodeScalar t.payload 0 16).getD 0 = leNat (t.payload.take 2) := by
  have hdec := canardDecodeScalar_bytes t.payload 0 2
  rw [if_neg (by omega), slice_zero] at hdec
  exact congrArg (Option.getD · 0) hdec

/-- A response without an error: its data end up in the buffer. -/
theorem onFileReadResponse_data {data : List UInt8} (hpay : t.payload = leBytes 2 0 ++ data)
    (hdata : data.length ≤ 256) :
    ∃ readBuffer, onFileReadResponse t n = .ok { n with readResult := data.length, readBuffer } ∧
      readBuffer.toList.take data.length = data := by
  have hlen : t.payload.length = 2 + data.length := by rw [hpay]; simp
  have herr : (canardDecodeScalar t.payload 0 16).getD 0 = 0 := by
    rw [responseError_eq (by omega), hpay, List.take_left' (length_leBytes 2 0)]
    rfl
  have hres : min 256 ((t.payload.length : Int) - 2) = data.length := by omega
  obtain ⟨buffer, hcopy, htake⟩ := copyData_slice (t := t) data.length 0 n.readBuffer (by omega)
    (by omega) (by simp [slice])
  refine ⟨buffer, ?_, ?_⟩
  · rw [onFileReadResponse]
    simp only [herr, hres, Int.toNat_natCast, hcopy]
    rfl
  · rw [Nat.zero_add] at htake
    rw [htake, hpay]
    simp [slice, leBytes]

/-- A response with an error. -/
theorem onFileReadResponse_error {e : Nat} (hpos : 0 < e) (hlt : e < 2 ^ 16)
    (hpay : t.payload.take 2 = leBytes 2 e) :
    onFileReadResponse t n = .ok { n with readResult := -e } := by
  have hlen : 2 ≤ t.payload.length := by
    have h := congrArg List.length hpay
    rw [List.length_take, length_leBytes] at h
    omega
  have herr : (canardDecodeScalar t.payload 0 16).getD 0 = e := by
    rw [responseError_eq hlen, hpay, leNat_leBytes_of_lt (by omega)]
  rw [onFileReadResponse]
  simp only [herr, if_pos (show e ≠ 0 by omega)]
  rfl

end Node

/-! ## The steps of the downloader -/

namespace Download

variable {id : NodeIdentity} {env : Env Unit} {t : CanardRxTransfer} {d d' : Download}
  {out : List Output}

/-- The node has an ID and a server to download from. -/
structure Ready (n : Node) : Prop where
  localNodeId : n.localNodeId ≠ 0
  remoteServerNodeId : n.remoteServerNodeId ≠ 0

/-- The request for the data at the current offset. -/
def fileReadRequest (d : Download) : Sent where
  destinationNodeId := d.node.remoteServerNodeId
  dataTypeId := 48
  transferId := d.node.fileReadTransferId
  priority := canardTransferPriorityLow
  isRequest := true
  payload := leBytes 5 d.offset.toNat ++ d.node.firmwareFilePath.chars

/-- The request that was built in the buffer: five bytes of offset, then the
path, which always fits. -/
theorem sendRequest_eq (hid : d.node.localNodeId ≠ 0) (hreb : d.node.rebootRequested = false)
    (enqueued : Int) :
    d.sendRequest enqueued = .ok
      (if enqueued < 0 then
        { d with
          node := { d.node with
            fileReadTransferId := incrementTransferID d.node.fileReadTransferId }
          pc := .done enqueued }
      else
        { d with
          node := { d.node with
            fileReadTransferId := incrementTransferID d.node.fileReadTransferId
            readResult := readPending }
          pc := .wait }, [.request d.fileReadRequest]) := by
  have hpath := d.node.firmwareFilePath.length_le
  have hmax : FileRead.maxSizeBytesRequest = 206 := rfl
  have hoffset : Node.encodeAt (List.replicate FileRead.maxSizeBytesRequest 0) 0 40 d.offset.toNat
      = .ok (filled FileRead.maxSizeBytesRequest (leBytes 5 d.offset.toNat)) := by
    rw [← filled_nil]
    exact Node.encodeAt_filled (o := 0) (k := 5) List.length_nil (by omega) (by omega)
  have hstore : Call.storeAt (filled FileRead.maxSizeBytesRequest (leBytes 5 d.offset.toNat)) 5
      d.node.firmwareFilePath.chars = .ok (filled FileRead.maxSizeBytesRequest
        (leBytes 5 d.offset.toNat ++ d.node.firmwareFilePath.chars)) :=
    storeAt_filled (length_leBytes 5 _) (by omega)
  have htake : (filled FileRead.maxSizeBytesRequest
      (leBytes 5 d.offset.toNat ++ d.node.firmwareFilePath.chars)).take
        (d.node.firmwareFilePath.chars.length + 5)
      = leBytes 5 d.offset.toNat ++ d.node.firmwareFilePath.chars := by
    have hlen : (leBytes 5 d.offset.toNat ++ d.node.firmwareFilePath.chars).length =
        d.node.firmwareFilePath.chars.length + 5 := by
      rw [List.length_append, length_leBytes, Nat.add_comm]
    rw [← hlen, take_filled]
  have hreq : canardRequestOrRespond d.node.localNodeId enqueued d.fileReadRequest
      = (enqueued, incrementTransferID d.node.fileReadTransferId, some d.fileReadRequest) :=
    canardRequestOrRespond_request hid (by show (24 : UInt8) ≤ 31; decide) rfl
  rw [fileReadRequest] at hreq
  rw [sendRequest]
  simp only [hreb, Bool.false_eq_true, if_false, hoffset, hstore, Call.ok_bind, htake, hreq]
  split <;> rfl

/-- The top of the loop: the download is interrupted, or it asks for the data
at the current offset and uses up a transfer ID. -/
theorem sendRequest_cases {enqueued : Int} (hid : d.node.localNodeId ≠ 0)
    (h : d.sendRequest enqueued = .ok (d', out)) :
    (d' = { d with pc := .done (-errInterrupted) } ∧ out = []) ∨
    (out = [.request d.fileReadRequest] ∧ d' =
      if enqueued < 0 then
        { d with
          node := { d.node with
            fileReadTransferId := incrementTransferID d.node.fileReadTransferId }
          pc := .done enqueued }
      else
        { d with
          node := { d.node with
            fileReadTransferId := incrementTransferID d.node.fileReadTransferId
            readResult := readPending }
          pc := .wait }) := by
  cases hreb : d.node.rebootRequested with
  | true =>
      rw [sendRequest] at h
      simp only [hreb, if_true] at h
      cases Call.pure_eq_ok.mp h
      exact Or.inl ⟨rfl, rfl⟩
  | false =>
      rw [sendRequest_eq hid hreb] at h
      cases h
      exact Or.inr ⟨rfl, rfl⟩

/-- The end of a pass of the waiting loop: nothing happened yet, the download
ends with an error, a chunk goes to the sink, or the file is complete. -/
theorem checkWait_cases {expired : Bool} {sinkRes : Int}
    (h : d.checkWait expired sinkRes = (d', out)) :
    (d' = d ∧ out = []) ∨
    (∃ res, res ≠ 0 ∧ d' = { d with pc := .done res } ∧ out = []) ∨
    (0 < d.node.readResult ∧ d.node.readResult ≠ readPending ∧
      (∃ pc, (pc = .pause ∨ ∃ res, res ≠ 0 ∧ pc = .done res) ∧
        d' = { d with pc, offset := d.offset + UInt64.ofNat d.node.readResult.toNat }) ∧
      out = [.chunk (d.node.readBuffer.toList.take d.node.readResult.toNat)]) ∨
    (d.node.readResult = 0 ∧ d' = { d with pc := .done 0 } ∧ out = []) := by
  rw [checkWait] at h
  by_cases hexp : expired = true
  · simp only [if_pos hexp] at h
    cases h
    exact Or.inr (Or.inl ⟨-errTimeout, by decide, rfl, rfl⟩)
  simp only [if_neg hexp] at h
  by_cases hpend : d.node.readResult = readPending
  · simp only [if_pos hpend] at h
    cases h
    exact Or.inl ⟨rfl, rfl⟩
  simp only [if_neg hpend] at h
  by_cases hneg : d.node.readResult < 0
  · simp only [if_pos hneg] at h
    cases h
    exact Or.inr (Or.inl ⟨d.node.readResult, by omega, rfl, rfl⟩)
  simp only [if_neg hneg] at h
  by_cases hpos : d.node.readResult > 0
  · simp only [if_pos hpos] at h
    refine Or.inr (Or.inr (Or.inl ⟨hpos, hpend, ?_⟩))
    by_cases hsink : sinkRes < 0
    · simp only [if_pos hsink] at h
      cases h
      exact ⟨⟨_, Or.inr ⟨sinkRes, by omega, rfl⟩, rfl⟩, rfl⟩
    · simp only [if_neg hsink] at h
      cases h
      exact ⟨⟨_, Or.inl rfl, rfl⟩, rfl⟩
  · simp only [if_neg hpos] at h
    cases h
    exact Or.inr (Or.inr (Or.inr ⟨by omega, rfl, rfl⟩))

@[simp] theorem chunksOf_response (sent : List Sent) : chunksOf (sent.map Output.response) = [] := by
  simp [chunksOf]

@[simp] theorem requestsOf_response (sent : List Sent) :
    requestsOf (sent.map Output.response) = [] := by
  simp [requestsOf]

/-- A received transfer moves neither the place nor the offset, causes
neither a request nor a chunk, and affects the node as in
`Node.reception_cases`. -/
theorem receive_cases (hr : Ready d.node) (h : d.receive id env t = .ok (d', out)) :
    chunksOf out = [] ∧ requestsOf out = [] ∧ d' = { d with node := d'.node } ∧
    ((Node.IsFileReadResponse t ∧ Node.awaits t d.node ∧
        Node.onFileReadResponse t d.node = .ok d'.node) ∨
     (¬(Node.IsFileReadResponse t ∧ Node.awaits t d.node) ∧
        d'.node = if Node.RequestsRestart t then { d.node with rebootRequested := true }
          else d.node)) := by
  have hid : ¬d.node.localNodeId = canardBroadcastNodeId := hr.localNodeId
  rw [receive] at h
  by_cases hadm : d.node.Admits t
  · rw [if_pos hadm] at h
    obtain ⟨⟨n, bl, sent⟩, hrec, h⟩ := Call.bind_eq_ok.mp h
    cases Call.pure_eq_ok.mp h
    exact ⟨chunksOf_response sent, requestsOf_response sent, rfl,
      Node.reception_cases hr.localNodeId hr.remoteServerNodeId hrec⟩
  · rw [if_neg hadm] at h
    cases h
    refine ⟨rfl, rfl, rfl, Or.inr ⟨?_, ?_⟩⟩
    · rintro ⟨⟨htype, hdata⟩, -⟩
      exact hadm (by simp [Node.Admits, Node.shouldAcceptTransfer, hid, htype, hdata])
    · rw [if_neg]
      rintro ⟨htype, hdata, -⟩
      refine hadm ?_
      rw [Node.Admits, Node.shouldAcceptTransfer, if_neg hid, htype, hdata]
      rfl

theorem receive_returns (hr : Ready d.node) : Call.Returns (d.receive id env t) := by
  have hid : ¬d.node.localNodeId = canardBroadcastNodeId := hr.localNodeId
  rw [receive]
  split
  · have hret : Call.Returns (Node.onTransferReception id env t d.node ()) :=
      Node.reception_returns_iff.mpr fun hf => hid hf.1
    obtain ⟨⟨n, bl, sent⟩, hrec⟩ := hret
    rw [hrec]
    exact ⟨_, rfl⟩
  · exact ⟨_, rfl⟩

/-- A node with an ID takes every input. -/
theorem step_returns (id : NodeIdentity) (hr : Ready d.node) (i : Input) :
    Call.Returns (step id d i) := by
  cases i with
  | request enqueued =>
      rw [step]
      split
      · cases hreb : d.node.rebootRequested with
        | true =>
            rw [sendRequest]
            simp only [hreb, if_true]
            exact ⟨_, rfl⟩
        | false => exact ⟨_, sendRequest_eq hr.localNodeId hreb enqueued⟩
      · exact ⟨_, rfl⟩
  | receive env t =>
      rw [step]
      split
      · exact receive_returns hr
      · exact ⟨_, rfl⟩
  | checkWait expired sinkRes =>
      rw [step]
      split <;> exact ⟨_, rfl⟩
  | checkPause elapsed => exact ⟨_, rfl⟩
  | requestReboot => exact ⟨_, rfl⟩

/-- The node keeps its ID and its server. -/
theorem step_frame (hr : Ready d.node) {i : Input} (h : step id d i = .ok (d', out)) :
    d'.node.localNodeId = d.node.localNodeId ∧
      d'.node.remoteServerNodeId = d.node.remoteServerNodeId := by
  cases i with
  | request enqueued =>
      rw [step] at h
      split at h
      · rcases sendRequest_cases hr.localNodeId h with ⟨rfl, -⟩ | ⟨-, rfl⟩
        · exact ⟨rfl, rfl⟩
        · split <;> exact ⟨rfl, rfl⟩
      · cases h
        exact ⟨rfl, rfl⟩
  | receive env t =>
      rw [step] at h
      split at h
      · obtain ⟨-, -, -, hcase⟩ := receive_cases hr h
        rcases hcase with ⟨-, -, hresp⟩ | ⟨-, hn⟩
        · rw [Node.onFileReadResponse_frame hresp]
          exact ⟨rfl, rfl⟩
        · rw [hn]
          split <;> exact ⟨rfl, rfl⟩
      · cases h
        exact ⟨rfl, rfl⟩
  | checkWait expired sinkRes =>
      rw [step] at h
      split at h
      · rcases checkWait_cases (Except.ok.inj h) with ⟨rfl, -⟩ | ⟨res, -, rfl, -⟩ |
          ⟨-, -, ⟨pc, -, rfl⟩, -⟩ | ⟨-, rfl, -⟩ <;> exact ⟨rfl, rfl⟩
      · cases h
        exact ⟨rfl, rfl⟩
  | checkPause elapsed =>
      cases h
      split <;> exact ⟨rfl, rfl⟩
  | requestReboot =>
      cases h
      exact ⟨rfl, rfl⟩

theorem step_ready (hr : Ready d.node) {i : Input} (h : step id d i = .ok (d', out)) :
    Ready d'.node := by
  obtain ⟨hid, hrem⟩ := step_frame hr h
  exact ⟨by rw [hid]; exact hr.localNodeId, by rw [hrem]; exact hr.remoteServerNodeId⟩

end Download

end UavcanAdapter
