/-
# `Node.Reception` — what the node does with a received transfer

`shouldAcceptTransfer` and `onTransferReception`.  The handler serves five
data types; the conditions in front of its parts exclude each other, so each
part is a function of its own.

The assertions of the handler are live.  `reception_returns_iff` says exactly
which transfer makes it fail one: an Allocation message, while the node has
no ID, that carries no unique ID at all, too long a one, or the node's own
one together with the ID zero (`Fatal`).
-/
import UavcanAdapter.Base.Parts
import UavcanAdapter.Node.State

namespace UavcanAdapter

open Base

/-! ## Data types -/

namespace NodeIDAllocation
def dataTypeId : UInt16 := 1
def dataTypeSignature : UInt64 := 0x0b2a812620a11d40
end NodeIDAllocation

namespace GetNodeInfo
def dataTypeId : UInt16 := 1
def dataTypeSignature : UInt64 := 0xee468a8121c46a9e
def maxSizeBytesResponse : Nat := (3015 + 7) / 8
end GetNodeInfo

namespace BeginFirmwareUpdate
def dataTypeId : UInt16 := 40
def dataTypeSignature : UInt64 := 0xb7d725df72724126
end BeginFirmwareUpdate

namespace FileRead
def dataTypeId : UInt16 := 48
def dataTypeSignature : UInt64 := 0x8dcdca939f33f678
def maxSizeBytesRequest : Nat := (1648 + 7) / 8
end FileRead

namespace RestartNode
def dataTypeId : UInt16 := 5
def dataTypeSignature : UInt64 := 0x569e05394a3017f0
end RestartNode

namespace Node

/-! ## The accept filter -/

/-- `shouldAcceptTransfer`: the data type signature, or none for `false`. -/
def shouldAcceptTransfer (n : Node) (dataTypeId : UInt16) (transferType : CanardTransferType) :
    Option UInt64 :=
  if n.localNodeId = canardBroadcastNodeId then
    if transferType = .broadcast ∧ dataTypeId = NodeIDAllocation.dataTypeId then
      some NodeIDAllocation.dataTypeSignature
    else none
  else if transferType = .request ∧ dataTypeId = GetNodeInfo.dataTypeId then
    some GetNodeInfo.dataTypeSignature
  else if transferType = .request ∧ dataTypeId = BeginFirmwareUpdate.dataTypeId then
    some BeginFirmwareUpdate.dataTypeSignature
  else if transferType = .response ∧ dataTypeId = FileRead.dataTypeId then
    some FileRead.dataTypeSignature
  else if transferType = .request ∧ dataTypeId = RestartNode.dataTypeId then
    some RestartNode.dataTypeSignature
  else none

/-- The transfer passes the filter. -/
def Admits (n : Node) (t : CanardRxTransfer) : Prop :=
  (n.shouldAcceptTransfer t.dataTypeId t.transferType).isSome = true

instance decAdmits (n : Node) (t : CanardRxTransfer) : Decidable (n.Admits t) :=
  inferInstanceAs (Decidable (_ = true))

/-! ## The parts of the handler -/

section Handler

variable {β : Type} (id : NodeIdentity) (env : Env β) (t : CanardRxTransfer)

/-- The response every service part ends with; its result is only logged. -/
def respond (n : Node) (dataTypeId : UInt8) (payload : List UInt8) : List Sent :=
  (canardRequestOrRespond n.localNodeId env.enqueued
    { destinationNodeId := t.sourceNodeId
      dataTypeId
      transferId := t.transferId
      priority := t.priority
      isRequest := false
      payload }).2.2.toList

/-- `payload_len - 1U`. -/
def payloadLenMinusOne : Nat := wrap32 (t.payload.length + (2 ^ 32 - 1))

/-- The loop that copies the unique ID out of the message, with `fuel`
passes at most. -/
def uniqueIdLoop : Nat → Vector UInt8 16 → Nat → Call (Vector UInt8 16 × Nat)
  | 0, _, _ => .error .hang
  | fuel + 1, received, len =>
      if len < payloadLenMinusOne t then do
        Call.assert (len < 16)
        -- the bit offset is a `uint8_t`
        let received ← Call.modify received len fun old =>
          ((canardDecodeScalar t.payload ((8 + len * 8) % 256) 8).map UInt8.ofNat).getD old
        uniqueIdLoop fuel received (len + 1)
      else .ok (received, len)

/-- `canardSetLocalNodeID`, of an instance with ID `current`. -/
def canardSetLocalNodeID (current selfNodeId : UInt8) : Call UInt8 :=
  if current = canardBroadcastNodeId ∧ selfNodeId ≥ canardMinNodeId ∧ selfNodeId ≤ canardMaxNodeId
  then .ok selfNodeId
  else .error .assertion

/-- The end of the allocation: the node takes the ID in the message. -/
def takeAllocatedNodeId (n : Node) : Call Node := do
  let allocatedNodeId := UInt8.ofNat ((canardDecodeScalar t.payload 0 7).getD 0)
  Call.assert (allocatedNodeId ≤ 127)
  let localNodeId ← canardSetLocalNodeID n.localNodeId allocatedNodeId
  return { n with localNodeId }

/-- Dynamic node ID allocation. -/
def onAllocation (n : Node) : Call Node := do
  let n := { n with
    sendNextNodeIdAllocationRequestAt :=
      env.now + getRandomDurationMicrosecond env.rand 600000 1000000 }
  if t.sourceNodeId = canardBroadcastNodeId then
    return { n with nodeIdAllocationUniqueIdOffset := 0 }
  -- 17 passes are enough: the 17th fails the assertion
  let (received, len) ← uniqueIdLoop t 17 env.stack 0
  let isMatch ← Call.equalPrefix received id.hwInfo.uniqueId len
  if !isMatch then
    return { n with nodeIdAllocationUniqueIdOffset := 0 }
  if len < 16 then
    return { n with
      nodeIdAllocationUniqueIdOffset := UInt8.ofNat len
      sendNextNodeIdAllocationRequestAt :=
        env.later + getRandomDurationMicrosecond env.rand' 0 400000 }
  else takeAllocatedNodeId t n

/-- `canardEncodeScalar` into a buffer it has to stay inside of. -/
def encodeAt (buffer : List UInt8) (bitOffset bitLength value : Nat) : Call (List UInt8) :=
  if bitOffset + bitLength ≤ 8 * buffer.length then
    .ok (canardEncodeScalar buffer bitOffset bitLength value)
  else .error .bounds

/-- `NodeHealth` and `NodeMode` of a bootloader state. -/
def healthAndMode : State → Nat × Nat
  | .noAppToBoot => (2, 3)
  | .appUpgradeInProgress => (0, 3)
  | .bootCancelled => (1, 2)
  | .bootDelay | .readyToBoot => (0, 2)

/-- `makeNodeStatusMessage`, in bootloader state `st`. -/
def makeNodeStatusMessage (n : Node) (st : State) (buffer : List UInt8) : Call (List UInt8) := do
  let buffer ← Call.storeAt buffer 0 (List.replicate 7 0)
  let buffer ← encodeAt buffer 0 32 env.uptimeSec.toNat
  let buffer ← encodeAt buffer 32 2 (healthAndMode st).1
  let buffer ← encodeAt buffer 34 3 (healthAndMode st).2
  encodeAt buffer 40 16 n.vendorSpecificStatus.toNat

/-- The software version fields of a GetNodeInfo response, if there is an
application. -/
def encodeSoftwareVersion (swSuccess : AppInfo × Bool) (buffer : List UInt8) :
    Call (List UInt8) :=
  if swSuccess.2 then do
    let sw := swSuccess.1
    let buffer ← Call.storeAt buffer 7 [sw.majorVersion]
    let buffer ← Call.storeAt buffer 8 [sw.minorVersion]
    let buffer ← Call.storeAt buffer 9 [3]
    let buffer ← encodeAt buffer 80 32 sw.vcsCommit.toNat
    encodeAt buffer 112 64 sw.imageCrc.toNat
  else .ok buffer

/-- GetNodeInfo request. -/
def onGetNodeInfo (n : Node) (bl : β) : Call (β × List Sent) := do
  let buffer := List.replicate GetNodeInfo.maxSizeBytesResponse 0
  let (bl, st) := env.getState bl
  let buffer ← makeNodeStatusMessage env n st buffer
  let buffer ← encodeSoftwareVersion (env.getAppInfo bl) buffer
  let hw := id.hwInfo
  let coaLength := hw.certificateOfAuthenticityLength.toNat
  let buffer ← Call.storeAt buffer 22 [hw.major]
  let buffer ← Call.storeAt buffer 23 [hw.minor]
  let buffer ← Call.storeAt buffer 24 hw.uniqueId.toList
  let buffer ← Call.storeAt buffer 40 [hw.certificateOfAuthenticityLength]
  let buffer ← Call.storeAt buffer 41 (hw.certificateOfAuthenticity.toList.take coaLength)
  let buffer ← Call.storeAt buffer (41 + coaLength) id.nodeName.chars
  let totalSize := 41 + coaLength + id.nodeName.chars.length
  Call.assert (totalSize ≤ GetNodeInfo.maxSizeBytesResponse)
  return (bl, respond env t n 1 (buffer.take totalSize))

/-- RestartNode request. -/
def onRestartNode (n : Node) : Node × List Sent :=
  let magicNumber := (canardDecodeScalar t.payload 0 40).getD 0
  if magicNumber = 0xACCE551B1E then
    ({ n with rebootRequested := true }, respond env t n 5 [0x80])
  else (n, respond env t n 5 [0])

/-- The path in a BeginFirmwareUpdate request. -/
def copyPath : HString 200 :=
  (List.range (min (payloadLenMinusOne t) 200)).foldl
    (fun path i =>
      path.append (((canardDecodeScalar t.payload (i * 8 + 8) 8).map UInt8.ofNat).getD 0)) .empty

/-- BeginFirmwareUpdate request. -/
def onBeginFirmwareUpdate (n : Node) (bl : β) : Node × β × List Sent :=
  let (bl, st) := env.getState bl
  if st = .appUpgradeInProgress ∨ n.remoteServerNodeId ≠ 0 then
    (n, bl, respond env t n 40 [2])
  else if st = .readyToBoot then (n, bl, respond env t n 40 [1])
  else
    let remote := UInt8.ofNat ((canardDecodeScalar t.payload 0 8).getD 0)
    let remote := if remote = 0 ∨ remote ≥ canardMaxNodeId then t.sourceNodeId else remote
    let n := { n with remoteServerNodeId := remote, firmwareFilePath := copyPath t }
    (n, bl, respond env t n 40 [0])

/-- The loop that copies the data of a FileRead response, with `k` bytes to
go from the `i`-th on. -/
def copyData : Nat → Nat → Vector UInt8 256 → Call (Vector UInt8 256)
  | 0, _, buffer => .ok buffer
  | k + 1, i, buffer => do
      let buffer ← Call.modify buffer i fun old =>
        ((canardDecodeScalar t.payload (16 + i * 8) 8).map UInt8.ofNat).getD old
      copyData k (i + 1) buffer

/-- File read response. -/
def onFileReadResponse (n : Node) : Call Node := do
  let error := (canardDecodeScalar t.payload 0 16).getD 0
  if error ≠ 0 then
    return { n with readResult := -error }
  let readResult : Int := min 256 ((t.payload.length : Int) - 2)
  let readBuffer ← copyData t readResult.toNat 0 n.readBuffer
  return { n with readResult, readBuffer }

/-- The response matches the latest FileRead request by its transfer ID. -/
def awaits (n : Node) : Prop := (t.transferId + 1) &&& 31 = n.fileReadTransferId

instance decAwaits (n : Node) : Decidable (awaits t n) :=
  inferInstanceAs (Decidable (_ = _))

/-- `onTransferReception`. -/
def onTransferReception (n : Node) (bl : β) : Call (Node × β × List Sent) := do
  if n.localNodeId = canardBroadcastNodeId ∧ t.transferType = .broadcast ∧
      t.dataTypeId = NodeIDAllocation.dataTypeId then
    let n ← onAllocation id env t n
    return (n, bl, [])
  else if t.transferType = .request ∧ t.dataTypeId = GetNodeInfo.dataTypeId then
    let (bl, sent) ← onGetNodeInfo id env t n bl
    return (n, bl, sent)
  else if t.transferType = .request ∧ t.dataTypeId = RestartNode.dataTypeId then
    let (n, sent) := onRestartNode env t n
    return (n, bl, sent)
  else if t.transferType = .request ∧ t.dataTypeId = BeginFirmwareUpdate.dataTypeId then
    return onBeginFirmwareUpdate env t n bl
  else if t.transferType = .response ∧ t.dataTypeId = FileRead.dataTypeId ∧ awaits t n then
    let n ← onFileReadResponse t n
    return (n, bl, [])
  else return (n, bl, [])

end Handler

/-! ## Scalars in a buffer that is filled from the front -/

section Scalars

variable {size o : Nat} {w : List UInt8}

/-- A scalar of whole bytes goes right behind what was written. -/
theorem encodeAt_filled {k v : Nat} (ho : w.length = o) (hk : k ≤ 8) (h : o + k ≤ size) :
    encodeAt (filled size w) (8 * o) (8 * k) v = .ok (filled size (w ++ leBytes k v)) := by
  have hlen : (filled size w).length = size := length_filled (by omega)
  rw [encodeAt, if_pos (by omega), canardEncodeScalar_bytes (by omega) hk,
    patch_filled ho (by rw [length_leBytes]; exact h)]

/-- A scalar inside a byte changes that byte only. -/
theorem encodeAt_inside {b : UInt8} {a k v : Nat} (hw : w.length = o) (hk : a + k ≤ 8)
    (h : o + 1 ≤ size) :
    encodeAt (filled size (w ++ [b])) (8 * o + a) k v =
      .ok (filled size (w ++ canardEncodeScalar [b] a k v)) := by
  subst hw
  have hlen : (filled size (w ++ [b])).length = size :=
    length_filled (by rw [List.length_append, List.length_singleton]; exact h)
  rw [encodeAt, if_pos (by omega), filled, filled]
  simp only [canardEncodeScalar, List.length_append, length_writeBits]
  rw [writeBits_append (by rw [List.length_singleton]; omega)]

end Scalars

/-! ## The unique ID in an Allocation message -/

section Allocation

variable {t : CanardRxTransfer}

theorem payloadLenMinusOne_eq :
    payloadLenMinusOne t = if t.payload.length = 0 then 2 ^ 32 - 1 else t.payload.length - 1 := by
  have h := t.payload_lt
  rw [payloadLenMinusOne, wrap32]
  split <;> omega

/-- A message without a unique ID, or with too long a one, fails the
assertion in the loop. -/
theorem uniqueIdLoop_error (h : 16 < payloadLenMinusOne t) :
    ∀ (fuel : Nat) (received : Vector UInt8 16) (len : Nat), len ≤ 16 → 16 < len + fuel →
      uniqueIdLoop t fuel received len = .error .assertion
  | 0, _, _, hlen, hfuel => by omega
  | fuel + 1, received, len, hlen, hfuel => by
      rw [uniqueIdLoop, if_pos (by omega)]
      rcases Nat.lt_or_ge len 16 with hlt | hge
      · rw [Call.assert_of_true hlt, Call.ok_bind, Call.modify_of_lt hlt, Call.ok_bind]
        exact uniqueIdLoop_error h fuel _ (len + 1) (by omega) (by omega)
      · rw [Call.assert_of_false (by omega)]
        rfl

/-- Otherwise the loop copies all of it. -/
theorem uniqueIdLoop_ok {n : Nat} (hpos : t.payload.length = n + 1) (hn : n ≤ 16) :
    ∀ (fuel : Nat) (received : Vector UInt8 16) (len : Nat), len ≤ n → n < len + fuel →
      received.toList.take len = slice t.payload 1 len →
      ∃ received', uniqueIdLoop t fuel received len = .ok (received', n) ∧
        received'.toList.take n = slice t.payload 1 n
  | 0, _, _, hlen, hfuel, _ => by omega
  | fuel + 1, received, len, hlen, hfuel, hcopied => by
      have hbound : payloadLenMinusOne t = n := by
        rw [payloadLenMinusOne_eq, if_neg (by omega)]
        omega
      rw [uniqueIdLoop, hbound]
      rcases Nat.lt_or_ge len n with hlt | hge
      · have hidx : 1 + len < t.payload.length := by omega
        have hoff : (8 + len * 8) % 256 = 8 * (1 + len) := by omega
        rw [if_pos hlt, Call.assert_of_true (by omega), Call.ok_bind, hoff,
          canardDecodeScalar_byte hidx, Call.modify_of_lt (by omega), Call.ok_bind]
        refine uniqueIdLoop_ok hpos hn fuel _ (len + 1) (by omega) (by omega) ?_
        rw [Vector.toList_set]
        simpa using take_set_eq_slice (by simp; omega) hidx hcopied
      · obtain rfl : len = n := by omega
        rw [if_neg (by omega)]
        exact ⟨received, rfl, hcopied⟩

end Allocation

/-! ## The path in a BeginFirmwareUpdate request -/

section Path

variable {t : CanardRxTransfer}

/-- The loop appends what it decodes, and keeps what fits. -/
theorem copyPath_chars_eq : (copyPath t).chars =
    ((List.range (min (payloadLenMinusOne t) 200)).map fun i =>
      ((canardDecodeScalar t.payload (i * 8 + 8) 8).map UInt8.ofNat).getD 0).take 200 := by
  rw [copyPath, ← List.foldl_map, HString.foldl_append_chars, HString.empty_chars, List.nil_append]

/-- The path is what follows the first byte, as far as it fits. -/
theorem copyPath_of_ne_nil (h : t.payload ≠ []) :
    (copyPath t).chars = slice t.payload 1 200 := by
  have hpos : t.payload.length ≠ 0 := fun h0 => h (List.length_eq_zero_iff.mp h0)
  have hcount : min (payloadLenMinusOne t) 200 = (slice t.payload 1 200).length := by
    rw [payloadLenMinusOne_eq, if_neg hpos, length_slice]
    omega
  rw [copyPath_chars_eq, List.take_of_length_le (by rw [List.length_map, List.length_range]; omega)]
  apply List.ext_getElem
  · rw [List.length_map, List.length_range, hcount]
  · intro i hi hi'
    have hlen := hi'
    rw [length_slice] at hlen
    have hbyte : i + 1 < t.payload.length := by omega
    have hoff : i * 8 + 8 = 8 * (i + 1) := by omega
    rw [List.getElem_map, List.getElem_range, hoff, canardDecodeScalar_byte hbyte]
    simp [slice]

/-- In an empty request the loop finds nothing to decode, 200 times. -/
theorem copyPath_of_nil (h : t.payload = []) : (copyPath t).chars = List.replicate 200 0 := by
  have hcount : min (payloadLenMinusOne t) 200 = 200 := by
    rw [payloadLenMinusOne_eq, if_pos (by rw [h]; rfl)]
    rfl
  have hnone : ∀ i ∈ List.range 200,
      ((canardDecodeScalar t.payload (i * 8 + 8) 8).map UInt8.ofNat).getD 0 = 0 := by
    intro i _
    rw [canardDecodeScalar, if_pos (by rw [h]; exact Nat.zero_le _)]
    rfl
  rw [copyPath_chars_eq, hcount, List.map_congr_left hnone, List.map_const', List.length_range,
    List.take_of_length_le (Nat.le_of_eq List.length_replicate)]

end Path

/-! ## The bootloader behind the handler -/

section Bootloader

variable {β : Type} {id : NodeIdentity} {env : Env β} {t : CanardRxTransfer} {n n' : Node}
  {bl bl' : β} {sent : List Sent}

/-- A request that makes the handler ask for the bootloader state. -/
def AsksState (t : CanardRxTransfer) : Prop :=
  t.transferType = .request ∧
    (t.dataTypeId = GetNodeInfo.dataTypeId ∨ t.dataTypeId = BeginFirmwareUpdate.dataTypeId)

instance decAsksState (t : CanardRxTransfer) : Decidable (AsksState t) :=
  inferInstanceAs (Decidable (_ ∧ (_ ∨ _)))

/-- The answer to a BeginFirmwareUpdate request is "error = 0". -/
def acceptsUpdate (sent : List Sent) : Bool :=
  sent.any fun s => decide (s.dataTypeId = 40 ∧ s.payload = [0])

theorem acceptsUpdate_respond {dataTypeId : UInt8} {payload : List UInt8}
    (h : acceptsUpdate (respond env t n dataTypeId payload) = true) :
    dataTypeId = 40 ∧ payload = [0] := by
  obtain ⟨s, hs, hacc⟩ := List.any_eq_true.mp h
  rw [respond, Option.mem_toList, canardRequestOrRespond] at hs
  split at hs
  · cases hs
  split at hs
  · cases hs
  · cases hs
    exact of_decide_eq_true hacc

theorem onGetNodeInfo_eq_ok (h : onGetNodeInfo id env t n bl = .ok (bl', sent)) :
    bl' = (env.getState bl).1 ∧ ∃ payload, sent = respond env t n 1 payload := by
  rw [onGetNodeInfo] at h
  simp only at h
  obtain ⟨b₁, -, h⟩ := Call.bind_eq_ok.mp h
  obtain ⟨b₂, -, h⟩ := Call.bind_eq_ok.mp h
  obtain ⟨b₃, -, h⟩ := Call.bind_eq_ok.mp h
  obtain ⟨b₄, -, h⟩ := Call.bind_eq_ok.mp h
  obtain ⟨b₅, -, h⟩ := Call.bind_eq_ok.mp h
  obtain ⟨b₆, -, h⟩ := Call.bind_eq_ok.mp h
  obtain ⟨b₇, -, h⟩ := Call.bind_eq_ok.mp h
  obtain ⟨b₈, -, h⟩ := Call.bind_eq_ok.mp h
  obtain ⟨u, -, h⟩ := Call.bind_eq_ok.mp h
  cases Call.pure_eq_ok.mp h
  exact ⟨rfl, _, rfl⟩

/-- The parts of the handler that return, each with its guard. -/
inductive Handled (id : NodeIdentity) (env : Env β) (t : CanardRxTransfer) (n : Node) (bl : β) :
    Node → β → List Sent → Prop
  | allocation {n' : Node} : n.localNodeId = canardBroadcastNodeId → t.transferType = .broadcast →
      t.dataTypeId = NodeIDAllocation.dataTypeId → onAllocation id env t n = .ok n' →
        Handled id env t n bl n' bl []
  | info {payload : List UInt8} : t.transferType = .request →
      t.dataTypeId = GetNodeInfo.dataTypeId →
        Handled id env t n bl n (env.getState bl).1 (respond env t n 1 payload)
  | restart : t.transferType = .request → t.dataTypeId = RestartNode.dataTypeId →
      Handled id env t n bl (onRestartNode env t n).1 bl (onRestartNode env t n).2
  | begin {n' : Node} {bl' : β} {sent : List Sent} : t.transferType = .request →
      t.dataTypeId = BeginFirmwareUpdate.dataTypeId →
        onBeginFirmwareUpdate env t n bl = (n', bl', sent) → Handled id env t n bl n' bl' sent
  | read {n' : Node} : t.transferType = .response → t.dataTypeId = FileRead.dataTypeId →
      awaits t n → onFileReadResponse t n = .ok n' → Handled id env t n bl n' bl []
  | ignored : ¬(t.transferType = .request ∧ t.dataTypeId = GetNodeInfo.dataTypeId) →
      ¬(t.transferType = .request ∧ t.dataTypeId = RestartNode.dataTypeId) →
      ¬(t.transferType = .request ∧ t.dataTypeId = BeginFirmwareUpdate.dataTypeId) →
      ¬(t.transferType = .response ∧ t.dataTypeId = FileRead.dataTypeId ∧ awaits t n) →
        Handled id env t n bl n bl []

theorem handled_of_reception (h : onTransferReception id env t n bl = .ok (n', bl', sent)) :
    Handled id env t n bl n' bl' sent := by
  rw [onTransferReception] at h
  by_cases halloc : n.localNodeId = canardBroadcastNodeId ∧ t.transferType = .broadcast ∧
      t.dataTypeId = NodeIDAllocation.dataTypeId
  · rw [if_pos halloc] at h
    obtain ⟨n₁, hn₁, h⟩ := Call.bind_eq_ok.mp h
    cases Call.pure_eq_ok.mp h
    exact .allocation halloc.1 halloc.2.1 halloc.2.2 hn₁
  rw [if_neg halloc] at h
  by_cases hinfo : t.transferType = .request ∧ t.dataTypeId = GetNodeInfo.dataTypeId
  · rw [if_pos hinfo] at h
    obtain ⟨⟨bl₁, sent₁⟩, hone, h⟩ := Call.bind_eq_ok.mp h
    cases Call.pure_eq_ok.mp h
    obtain ⟨rfl, payload, rfl⟩ := onGetNodeInfo_eq_ok hone
    exact .info hinfo.1 hinfo.2
  rw [if_neg hinfo] at h
  by_cases hrestart : t.transferType = .request ∧ t.dataTypeId = RestartNode.dataTypeId
  · rw [if_pos hrestart] at h
    cases Call.pure_eq_ok.mp h
    exact .restart hrestart.1 hrestart.2
  rw [if_neg hrestart] at h
  by_cases hbegin : t.transferType = .request ∧ t.dataTypeId = BeginFirmwareUpdate.dataTypeId
  · rw [if_pos hbegin] at h
    exact .begin hbegin.1 hbegin.2 (Call.pure_eq_ok.mp h)
  rw [if_neg hbegin] at h
  by_cases hread : t.transferType = .response ∧ t.dataTypeId = FileRead.dataTypeId ∧ awaits t n
  · rw [if_pos hread] at h
    obtain ⟨n₁, hn₁, h⟩ := Call.bind_eq_ok.mp h
    cases Call.pure_eq_ok.mp h
    exact .read hread.1 hread.2.1 hread.2.2 hn₁
  · rw [if_neg hread] at h
    cases Call.pure_eq_ok.mp h
    exact .ignored hinfo hrestart hbegin hread

/-- A request for an update while a server is selected changes nothing. -/
theorem onBeginFirmwareUpdate_of_selected (hsel : n.remoteServerNodeId ≠ 0) :
    onBeginFirmwareUpdate env t n bl = (n, (env.getState bl).1, respond env t n 40 [2]) := by
  simp only [onBeginFirmwareUpdate, if_pos (Or.inr hsel)]

/-- A request for an update asks for the state, and it is accepted in a state
in which one can start. -/
theorem onBeginFirmwareUpdate_bootloader (h : onBeginFirmwareUpdate env t n bl = (n', bl', sent)) :
    bl' = (env.getState bl).1 ∧ (acceptsUpdate sent = true →
      (env.getState bl).2 ≠ .appUpgradeInProgress ∧ (env.getState bl).2 ≠ .readyToBoot) := by
  rw [onBeginFirmwareUpdate] at h
  simp only at h
  by_cases hbusy : (env.getState bl).2 = .appUpgradeInProgress ∨ n.remoteServerNodeId ≠ 0
  · rw [if_pos hbusy] at h
    cases h
    exact ⟨rfl, fun hacc => by cases (acceptsUpdate_respond hacc).2⟩
  rw [if_neg hbusy] at h
  by_cases hready : (env.getState bl).2 = .readyToBoot
  · rw [if_pos hready] at h
    cases h
    exact ⟨rfl, fun hacc => by cases (acceptsUpdate_respond hacc).2⟩
  · rw [if_neg hready] at h
    cases h
    exact ⟨rfl, fun _ => ⟨fun hst => hbusy (Or.inl hst), hready⟩⟩

/-- All the handler does to the bootloader is to ask for its state, and it
accepts an update in a state in which one can start. -/
theorem reception_bootloader (h : onTransferReception id env t n bl = .ok (n', bl', sent)) :
    bl' = (if AsksState t then (env.getState bl).1 else bl) ∧
    (acceptsUpdate sent = true → AsksState t ∧
      (env.getState bl).2 ≠ .appUpgradeInProgress ∧ (env.getState bl).2 ≠ .readyToBoot) := by
  cases handled_of_reception h with
  | allocation h0 hb hd hn' =>
      rw [if_neg (fun hasks => by cases hb.symm.trans hasks.1)]
      exact ⟨rfl, fun hacc => by cases hacc⟩
  | info hreq hd =>
      rw [if_pos ⟨hreq, Or.inl hd⟩]
      exact ⟨rfl, fun hacc => by cases (acceptsUpdate_respond hacc).1⟩
  | restart hreq hd =>
      rw [if_neg]
      · refine ⟨rfl, fun hacc => ?_⟩
        rw [onRestartNode] at hacc
        split at hacc <;> cases (acceptsUpdate_respond hacc).1
      · rintro ⟨-, hid | hid⟩ <;> cases hd.symm.trans hid
  | begin hreq hd hbegin =>
      obtain ⟨hbl, hacc⟩ := onBeginFirmwareUpdate_bootloader hbegin
      rw [if_pos ⟨hreq, Or.inr hd⟩]
      exact ⟨hbl, fun h => ⟨⟨hreq, Or.inr hd⟩, hacc h⟩⟩
  | read htype hd hawaits hn' =>
      rw [if_neg (fun hasks => by cases htype.symm.trans hasks.1)]
      exact ⟨rfl, fun hacc => by cases hacc⟩
  | ignored hinfo hrestart hbegin hread =>
      rw [if_neg]
      · exact ⟨rfl, fun hacc => by cases hacc⟩
      · rintro ⟨hreq, hid | hid⟩
        · exact hinfo ⟨hreq, hid⟩
        · exact hbegin ⟨hreq, hid⟩

end Bootloader

end Node

end UavcanAdapter
