/-
# `Canard.Transmission` — how a transfer is cut into frames

`canardBroadcast` and `canardRequestOrRespond` compose an identifier, and
`enqueueTxFrames` makes the frames and puts each of them on the queue, as
long as there is memory.

What the frames are is said without the loop (`transferFrames`): the CRC and
the payload, one behind the other, are cut into pieces of seven bytes, and
every piece gets a tail byte with its place in the transfer.
`enqueueTxFrames_eq` says that the loop makes just these.
-/
import UavcanAdapter.Canard.CanId
import UavcanAdapter.Canard.TransferCrc
import UavcanAdapter.Canard.Types

namespace UavcanAdapter

open Base TransferCrc

/-! ## Frames -/

theorem CanardCANFrame.length_compose (bytes : List UInt8) (tail : UInt8) :
    (bytes.take 7 ++ [tail]).length ≤ 8 := by
  rw [List.length_append, List.length_take, List.length_singleton]
  omega

/-- A frame of at most seven bytes and a tail byte. -/
def CanardCANFrame.compose (canId : UInt32) (bytes : List UInt8) (tail : UInt8) :
    CanardCANFrame where
  id := canId ||| canardCanFrameEff
  data := bytes.take 7 ++ [tail]
  data_len_le := length_compose bytes tail

/-- The two bytes in front of a multi-frame payload. -/
def crcBytes (crc : UInt16) : List UInt8 := [crc.toUInt8, (crc >>> 8).toUInt8]

/-- The number of frames that `n` bytes behind the CRC need. -/
def frameCount (n : Nat) : Nat := (n + 8) / 7

/-- The place of frame `i` of `n` in a transfer. -/
def sotEotOf (n i : Nat) : UInt8 := if i + 1 = n then 0x40 else if i = 0 then 0x80 else 0

/-- Frame `i` of a multi-frame transfer. -/
def multiFrame (canId : UInt32) (transferId : UInt8) (crc : UInt16) (payload : List UInt8)
    (i : Nat) : CanardCANFrame :=
  .compose canId (slice (crcBytes crc ++ payload) (7 * i) 7)
    (tailByte (sotEotOf (frameCount payload.length) i) (decide (i % 2 = 1)) transferId)

/-- All frames of a transfer. -/
def transferFrames (canId : UInt32) (transferId : UInt8) (crc : UInt16) (payload : List UInt8) :
    List CanardCANFrame :=
  if payload.length < canardCanFrameMaxDataLen then
    [.compose canId payload (tailByte 0xC0 false transferId)]
  else (List.range (frameCount payload.length)).map (multiFrame canId transferId crc payload)

/-- The arguments of `enqueueTxFrames`. -/
structure TxTransfer where
  canId : UInt32
  transferId : UInt8
  crc : UInt16
  payload : List UInt8

/-- The frames of a transfer. -/
def TxTransfer.frames (t : TxTransfer) : List CanardCANFrame :=
  transferFrames t.canId t.transferId t.crc t.payload

/-- The CRC of a transfer of several frames. -/
def payloadCrc (dataTypeSignature : UInt64) (payload : List UInt8) : UInt16 :=
  if payload.length > 7 then transferCrc dataTypeSignature payload else 0xFFFF

/-- What `canardBroadcast` makes of its arguments, or its result where they are
wrong. -/
def composeBroadcast (nodeId : UInt8) (dataTypeSignature : UInt64) (dataTypeId : UInt16)
    (transferId priority : UInt8) (payload : List UInt8) : Except Int TxTransfer :=
  if priority > canardTransferPriorityLowest then .error (-canardErrorInvalidArgument)
  else if nodeId = canardBroadcastNodeId then
    if payload.length > 7 then .error (-canardErrorNodeIdNotSet)
    else if dataTypeId &&& 0x3 ≠ dataTypeId then .error (-canardErrorInvalidArgument)
    else
      -- the discriminator of an anonymous message is made of its payload
      let discriminator := crcAdd 0xFFFF payload &&& 0x7FFE
      .ok { canId := anonymousId priority discriminator dataTypeId nodeId
            transferId
            crc := 0xFFFF
            payload }
  else
    .ok { canId := messageId priority dataTypeId nodeId
          transferId
          crc := payloadCrc dataTypeSignature payload
          payload }

/-- What `canardRequestOrRespond` makes of its arguments, or its result where
they are wrong. -/
def composeService (nodeId destinationNodeId : UInt8) (dataTypeSignature : UInt64)
    (dataTypeId transferId priority : UInt8) (isRequest : Bool) (payload : List UInt8) :
    Except Int TxTransfer :=
  if priority > canardTransferPriorityLowest then .error (-canardErrorInvalidArgument)
  else if nodeId = canardBroadcastNodeId then .error (-canardErrorNodeIdNotSet)
  else
    .ok { canId := serviceId priority dataTypeId isRequest destinationNodeId nodeId
          transferId
          crc := payloadCrc dataTypeSignature payload
          payload }

namespace CanardInstance

/-! ## The queue is filled -/

/-- A frame is put on the queue, if there is a block for it. -/
def enqueueFrame (ins : CanardInstance) (frame : CanardCANFrame) :
    Call (Option CanardInstance) :=
  match createTxItem ins.allocator frame with
  | none => return none
  | some (item, allocator) => do
      let txQueue ← pushTxQueue ins.txQueue item
      return some { ins with allocator, txQueue }

/-- The loop of `enqueueTxFrames`, with `fuel` passes at most. -/
def enqueueLoop (canId : UInt32) (transferId : UInt8) (crc : UInt16) (payload : List UInt8) :
    Nat → CanardInstance → Nat → Bool → UInt8 → Int → Call (CanardInstance × Int)
  | 0, _, _, _, _, _ => .error .hang
  | fuel + 1, ins, dataIndex, toggle, sotEot, result =>
      if payload.length - dataIndex ≠ 0 then do
        let start := if dataIndex = 0 then crcBytes crc else []
        let next := min payload.length (dataIndex + (7 - start.length))
        let sotEot := if next = payload.length then 0x40 else sotEot
        let frame := .compose canId (start ++ slice payload dataIndex (7 - start.length))
          (tailByte sotEot toggle transferId)
        match ← ins.enqueueFrame frame with
        | none => return (ins, -canardErrorOutOfMemory)
        | some ins =>
            enqueueLoop canId transferId crc payload fuel ins next (!toggle) 0 (result + 1)
      else .ok (ins, result)

/-- `enqueueTxFrames`. -/
def enqueueTxFrames (ins : CanardInstance) (canId : UInt32) (transferId : UInt8) (crc : UInt16)
    (payload : List UInt8) : Call (CanardInstance × Int) := do
  Call.assert (canId &&& canardCanExtIdMask = canId)
  if payload.length < canardCanFrameMaxDataLen then
    match ← ins.enqueueFrame (.compose canId payload (tailByte 0xC0 false transferId)) with
    | none => return (ins, -canardErrorOutOfMemory)
    | some ins => return (ins, 1)
  else
    -- a pass takes a byte at least
    enqueueLoop canId transferId crc payload (payload.length + 1) ins 0 false 0x80 0

/-! ## The interface -/

/-- `canardBroadcast`: the result, and the transfer ID afterwards. -/
def canardBroadcast (ins : CanardInstance) (dataTypeSignature : UInt64) (dataTypeId : UInt16)
    (transferId priority : UInt8) (payload : List UInt8) :
    Call (CanardInstance × Int × UInt8) :=
  match composeBroadcast ins.nodeId dataTypeSignature dataTypeId transferId priority payload with
  | .error result => .ok (ins, result, transferId)
  | .ok t => do
      let (ins, result) ← ins.enqueueTxFrames t.canId t.transferId t.crc t.payload
      return (ins, result, incrementTransferID transferId)

/-- `canardRequestOrRespond`: the result, and the transfer ID afterwards. -/
def canardRequestOrRespond (ins : CanardInstance) (destinationNodeId : UInt8)
    (dataTypeSignature : UInt64) (dataTypeId transferId priority : UInt8) (isRequest : Bool)
    (payload : List UInt8) : Call (CanardInstance × Int × UInt8) :=
  match composeService ins.nodeId destinationNodeId dataTypeSignature dataTypeId transferId
    priority isRequest payload with
  | .error result => .ok (ins, result, transferId)
  | .ok t => do
      let (ins, result) ← ins.enqueueTxFrames t.canId t.transferId t.crc t.payload
      -- the transfer ID of a response must not be altered
      return (ins, result, if isRequest then incrementTransferID transferId else transferId)

/-- `canardPeekTxQueue`. -/
def canardPeekTxQueue (ins : CanardInstance) : Option CanardCANFrame :=
  ins.txQueue.head?.map CanardTxQueueItem.frame

/-- `canardPopTxQueue`, which must not be called on an empty queue. -/
def canardPopTxQueue (ins : CanardInstance) : Call CanardInstance :=
  match ins.txQueue with
  | [] => .error .bounds
  | item :: txQueue => do
      let allocator ← ins.allocator.freeBlock item.block
      return { ins with allocator, txQueue }

/-! ## The loop -/

/-- Frame after frame is put on the queue, until there is no memory left. -/
def enqueueAll : CanardInstance → List CanardCANFrame → Call (CanardInstance × Bool)
  | ins, [] => .ok (ins, true)
  | ins, frame :: frames => do
      match ← ins.enqueueFrame frame with
      | none => return (ins, false)
      | some ins => enqueueAll ins frames

variable {ins ins' : CanardInstance} {canId : UInt32} {transferId : UInt8} {crc : UInt16}
  {payload : List UInt8} {frame : CanardCANFrame} {frames : List CanardCANFrame}

theorem compose_data_pos (bytes : List UInt8) (tail : UInt8) :
    0 < (CanardCANFrame.compose canId bytes tail).data.length := by
  rw [CanardCANFrame.compose, List.length_append, List.length_singleton]
  omega

theorem enqueueFrame_eq_some : ins.enqueueFrame frame = .ok (some ins') ↔
    0 < frame.data.length ∧ ∃ block allocator,
      ins.allocator.allocateBlock = some (block, allocator) ∧
      ins' = { ins with allocator, txQueue := pushLoop { block, frame } ins.txQueue } := by
  rw [enqueueFrame, createTxItem]
  cases halloc : ins.allocator.allocateBlock with
  | none => exact ⟨nofun, fun ⟨_, _, _, h, _⟩ => by cases h⟩
  | some p =>
      obtain ⟨block, allocator⟩ := p
      simp only [Option.map_some]
      constructor
      · intro h
        obtain ⟨txQueue, hq, h⟩ := Call.bind_eq_ok.mp h
        obtain ⟨hpos, rfl⟩ := CanardTxQueueItem.pushTxQueue_eq_ok.mp hq
        exact ⟨hpos, block, allocator, rfl, (Option.some.inj (Call.pure_eq_ok.mp h)).symm⟩
      · rintro ⟨hpos, block', allocator', hp, rfl⟩
        cases hp
        exact Call.bind_eq_ok.mpr
          ⟨_, CanardTxQueueItem.pushTxQueue_eq_ok.mpr ⟨hpos, rfl⟩, rfl⟩

/-- A frame finds its place on the queue unless there is no memory. -/
theorem enqueueFrame_cases (ins : CanardInstance) (hpos : 0 < frame.data.length) :
    (ins.allocator.freeList = [] ∧ ins.enqueueFrame frame = .ok none) ∨
    ∃ ins', ins.allocator.freeList ≠ [] ∧ ins.enqueueFrame frame = .ok (some ins') := by
  cases halloc : ins.allocator.allocateBlock with
  | none =>
      refine Or.inl ⟨CanardPoolAllocator.allocateBlock_eq_none.mp halloc, ?_⟩
      rw [enqueueFrame, createTxItem, halloc]
      rfl
  | some p =>
      refine Or.inr ⟨_, ?_, enqueueFrame_eq_some.mpr ⟨hpos, p.1, p.2, halloc, rfl⟩⟩
      intro hnil
      rw [CanardPoolAllocator.allocateBlock_eq_none.mpr hnil] at halloc
      cases halloc

/-- The index of the first byte of frame `i` in the payload. -/
def dataIndexAt (n i : Nat) : Nat := min n (7 * i - 2)

theorem multiFrame_bytes {i : Nat} (hn : canardCanFrameMaxDataLen ≤ payload.length)
    (hi : i < frameCount payload.length) :
    (if dataIndexAt payload.length i = 0 then crcBytes crc else []) ++
        slice payload (dataIndexAt payload.length i)
          (7 - (if dataIndexAt payload.length i = 0 then crcBytes crc else []).length) =
      slice (crcBytes crc ++ payload) (7 * i) 7 := by
  have hlen : 8 ≤ payload.length := hn
  rw [frameCount] at hi
  rcases Nat.eq_zero_or_pos i with rfl | hpos
  · have h0 : dataIndexAt payload.length 0 = 0 := Nat.min_eq_right (Nat.zero_le _)
    rw [if_pos h0, h0, Nat.mul_zero, slice_zero, slice_zero, List.take_append]
    rfl
  · have hat : dataIndexAt payload.length i = 7 * i - 2 := Nat.min_eq_right (by omega)
    have hcrc : (crcBytes crc).length = 2 := rfl
    have hdrop : (crcBytes crc).drop (7 * i) = [] := List.drop_eq_nil_of_le (by omega)
    rw [if_neg (by omega), List.nil_append, hat, slice, slice, List.drop_append, hcrc, hdrop]
    rfl

/-- From frame `i` on the loop puts the remaining frames on the queue. -/
theorem enqueueLoop_eq (hn : canardCanFrameMaxDataLen ≤ payload.length) (fuel : Nat) :
    ∀ (ins : CanardInstance) (i : Nat), i ≤ frameCount payload.length →
      frameCount payload.length - i < fuel →
    enqueueLoop canId transferId crc payload fuel ins (dataIndexAt payload.length i)
        (decide (i % 2 = 1)) (if i = 0 then 0x80 else 0) i = do
      let (ins, all) ← enqueueAll ins ((List.range' i (frameCount payload.length - i)).map
        (multiFrame canId transferId crc payload))
      return (ins,
        if all then (frameCount payload.length : Int) else -canardErrorOutOfMemory) := by
  have hcount : frameCount payload.length = (payload.length + 8) / 7 := rfl
  have hlen : 8 ≤ payload.length := hn
  induction fuel with
  | zero => exact fun _ _ _ hfuel => absurd hfuel (Nat.not_lt_zero _)
  | succ fuel ih =>
      intro ins i hi hfuel
      rw [enqueueLoop]
      rcases Nat.eq_or_lt_of_le hi with rfl | hlt
      · -- behind the last frame
        have hat : dataIndexAt payload.length (frameCount payload.length) = payload.length := by
          rw [dataIndexAt]
          omega
        rw [if_neg (by rw [hat]; omega), Nat.sub_self]
        rfl
      · have hat : dataIndexAt payload.length i < payload.length := by
          rw [dataIndexAt]
          omega
        have hzero : dataIndexAt payload.length i = 0 ↔ i = 0 := by
          rw [dataIndexAt]
          omega
        have hnext : min payload.length (dataIndexAt payload.length i +
            (7 - (if dataIndexAt payload.length i = 0 then crcBytes crc else []).length)) =
            dataIndexAt payload.length (i + 1) := by
          have hcrc : (crcBytes crc).length = 2 := rfl
          rw [dataIndexAt, dataIndexAt]
          split <;> simp only [hcrc, List.length_nil] <;> omega
        have hlast : dataIndexAt payload.length (i + 1) = payload.length ↔
            i + 1 = frameCount payload.length := by
          rw [dataIndexAt]
          omega
        have hframe : multiFrame canId transferId crc payload i = .compose canId
            ((if dataIndexAt payload.length i = 0 then crcBytes crc else []) ++
              slice payload (dataIndexAt payload.length i)
                (7 - (if dataIndexAt payload.length i = 0 then crcBytes crc else []).length))
            (tailByte (if dataIndexAt payload.length (i + 1) = payload.length then 0x40
              else if i = 0 then 0x80 else 0) (decide (i % 2 = 1)) transferId) := by
          rw [multiFrame_bytes hn hlt, multiFrame, sotEotOf]
          simp only [hlast]
        have htoggle : (!decide (i % 2 = 1)) = decide ((i + 1) % 2 = 1) := by
          rw [← decide_not, decide_eq_decide]
          omega
        rw [if_pos (by omega), show frameCount payload.length - i
          = frameCount payload.length - (i + 1) + 1 by omega, List.range'_succ, List.map_cons,
          enqueueAll]
        simp only [hnext, ← hframe, bind_assoc]
        refine congrArg _ (funext fun r => ?_)
        cases r with
        | none => rfl
        | some ins' =>
            have hrest := ih ins' (i + 1) (by omega) (by omega)
            rw [if_neg (Nat.succ_ne_zero i)] at hrest
            simp only [htoggle]
            exact_mod_cast hrest

/-- The frames of a transfer go on the queue one after the other. -/
theorem enqueueTxFrames_eq (hid : canId &&& canardCanExtIdMask = canId) :
    ins.enqueueTxFrames canId transferId crc payload = do
      let (ins, all) ← enqueueAll ins (transferFrames canId transferId crc payload)
      return (ins, if all then ((transferFrames canId transferId crc payload).length : Int)
        else -canardErrorOutOfMemory) := by
  rw [enqueueTxFrames, Call.assert_of_true hid, Call.ok_bind, transferFrames]
  by_cases hn : payload.length < canardCanFrameMaxDataLen
  · rw [if_pos hn, if_pos hn, enqueueAll, bind_assoc]
    refine congrArg _ (funext fun r => ?_)
    cases r <;> rfl
  · have hcount : frameCount payload.length = (payload.length + 8) / 7 := rfl
    have hlen : 8 ≤ payload.length := not_lt.mp hn
    have hloop := @enqueueLoop_eq canId transferId crc payload hlen (payload.length + 1) ins 0
      (Nat.zero_le _) (by omega)
    rw [show dataIndexAt payload.length 0 = 0 from Nat.min_eq_right (Nat.zero_le _)] at hloop
    rw [if_neg hn, if_neg hn, List.length_map, List.length_range, List.range_eq_range']
    exact hloop

/-! ## What is on the queue afterwards -/

/-- The items go on the queue one after the other. -/
def pushAll (txQueue items : List CanardTxQueueItem) : List CanardTxQueueItem :=
  items.foldl (fun q item => pushLoop item q) txQueue

theorem perm_pushAll (txQueue items : List CanardTxQueueItem) :
    (pushAll txQueue items).Perm (items ++ txQueue) := by
  induction items generalizing txQueue with
  | nil => exact List.Perm.refl _
  | cons item items ih =>
      have hpush : (pushLoop item txQueue).Perm (item :: txQueue) :=
        CanardTxQueueItem.perm_pushLoop
      exact ((ih _).trans (hpush.append_left items)).trans List.perm_middle

/-- As many frames go on the queue as there is memory for, the first ones
first. -/
theorem enqueueAll_spec (ins : CanardInstance) (hpos : ∀ frame ∈ frames, 0 < frame.data.length) :
    ∃ allocator items,
      enqueueAll ins frames = .ok ({ ins with allocator, txQueue := pushAll ins.txQueue items },
        decide (frames.length ≤ ins.allocator.freeList.length)) ∧
      items.map CanardTxQueueItem.frame = frames.take ins.allocator.freeList.length ∧
      ins.allocator.Takes (items.map CanardTxQueueItem.block) allocator := by
  induction frames generalizing ins with
  | nil =>
      refine ⟨ins.allocator, [], ?_, List.take_nil.symm, .refl⟩
      rw [List.length_nil, decide_eq_true (Nat.zero_le _)]
      rfl
  | cons frame frames ih =>
      obtain ⟨hframe, hframes⟩ := List.forall_mem_cons.mp hpos
      rw [enqueueAll]
      rcases enqueueFrame_cases ins hframe with ⟨hnil, hrun⟩ | ⟨ins', -, hrun⟩
      · refine ⟨ins.allocator, [], ?_, ?_, .refl⟩
        · rw [hrun, hnil, List.length_nil, decide_eq_false (by simp)]
          rfl
        · rw [hnil]
          rfl
      · obtain ⟨-, block, allocator, halloc, rfl⟩ := enqueueFrame_eq_some.mp hrun
        obtain ⟨hfree, -⟩ := CanardPoolAllocator.freeList_of_allocateBlock halloc
        obtain ⟨allocator', items, hrun', hmap, htakes⟩ := ih { ins with
          allocator, txQueue := pushLoop { block, frame } ins.txQueue } hframes
        refine ⟨allocator', { block, frame } :: items, ?_, ?_, ?_⟩
        · rw [hrun, Call.ok_bind]
          dsimp only
          rw [hrun', hfree]
          simp only [List.length_cons, Nat.succ_le_succ_iff]
          rfl
        · rw [hfree, List.length_cons, List.take_succ_cons, List.map_cons, hmap]
        · exact (CanardPoolAllocator.Takes.allocate halloc).trans htakes

end CanardInstance

/-! ## Well-formed transfers -/

/-- The flags of the identifier are clear. -/
def TxTransfer.Plain (t : TxTransfer) : Prop := t.canId.toNat < 2 ^ 29

section Compose

variable {nodeId destinationNodeId transferId priority : UInt8} {dataTypeSignature : UInt64}
  {t : TxTransfer} {payload : List UInt8} {frame : CanardCANFrame}

theorem or_lt {x y : UInt32} (hx : x.toNat < 2 ^ 29) (hy : y.toNat < 2 ^ 29) :
    (x ||| y).toNat < 2 ^ 29 := by
  rw [UInt32.toNat_or]
  exact Nat.or_lt_two_pow hx hy

theorem shiftLeft_lt {x : UInt32} {k : Nat} (hk : k < 32) (h : x.toNat * 2 ^ k < 2 ^ 29) :
    (x <<< UInt32.ofNat k).toNat < 2 ^ 29 := by
  rw [toNat_shiftLeft_of_lt hk (by omega)]
  exact h

theorem toNat_priority_lt (h : ¬priority > canardTransferPriorityLowest) : priority.toNat < 32 := by
  have hle := UInt8.le_iff_toNat_le.mp (UInt8.not_lt.mp h)
  exact Nat.lt_succ_of_le hle

theorem plain_of_composeService {dataTypeId : UInt8} {isRequest : Bool}
    (h : composeService nodeId destinationNodeId dataTypeSignature dataTypeId transferId priority
      isRequest payload = .ok t) : t.Plain := by
  rw [composeService] at h
  split at h
  · cases h
  rename_i hprio
  split at h
  · cases h
  cases h
  have hp := toNat_priority_lt hprio
  have hd : dataTypeId.toNat < 2 ^ 8 := dataTypeId.toNat_lt
  have hdst : destinationNodeId.toNat < 2 ^ 8 := destinationNodeId.toNat_lt
  have hn : nodeId.toNat < 2 ^ 8 := nodeId.toNat_lt
  refine or_lt (or_lt (or_lt (or_lt (or_lt ?_ ?_) ?_) ?_) (by decide)) ?_
  · exact shiftLeft_lt (k := 24) (by decide) (by rw [UInt8.toNat_toUInt32]; omega)
  · exact shiftLeft_lt (k := 16) (by decide) (by rw [UInt8.toNat_toUInt32]; omega)
  · cases isRequest <;> decide
  · exact shiftLeft_lt (k := 8) (by decide) (by rw [UInt8.toNat_toUInt32]; omega)
  · rw [UInt8.toNat_toUInt32]
    omega

theorem plain_of_composeBroadcast {dataTypeId : UInt16}
    (h : composeBroadcast nodeId dataTypeSignature dataTypeId transferId priority payload = .ok t) :
    t.Plain := by
  rw [composeBroadcast] at h
  split at h
  · cases h
  rename_i hprio
  have hp := toNat_priority_lt hprio
  have hn : nodeId.toNat < 2 ^ 8 := nodeId.toNat_lt
  split at h
  · split at h
    · cases h
    split at h
    · cases h
    cases h
    have hdisc : (crcAdd 0xFFFF payload &&& 0x7FFE).toNat ≤ 0x7FFE := by
      rw [UInt16.toNat_and]
      exact Nat.and_le_right
    have hd : (dataTypeId &&& 0x3).toNat ≤ 0x3 := by
      rw [UInt16.toNat_and]
      exact Nat.and_le_right
    refine or_lt (or_lt (or_lt ?_ ?_) ?_) ?_
    · exact shiftLeft_lt (k := 24) (by decide) (by rw [UInt8.toNat_toUInt32]; omega)
    · exact shiftLeft_lt (k := 9) (by decide) (by rw [UInt16.toNat_toUInt32]; omega)
    · exact shiftLeft_lt (k := 8) (by decide) (by rw [UInt16.toNat_toUInt32]; omega)
    · rw [UInt8.toNat_toUInt32]
      omega
  · cases h
    exact toNat_messageId_lt _ _ hp

/-- All frames of a transfer have its identifier, and none is empty. -/
theorem forall_frames (h : frame ∈ t.frames) :
    frame.id = t.canId ||| canardCanFrameEff ∧ 0 < frame.data.length := by
  rw [TxTransfer.frames, transferFrames] at h
  split at h
  · rw [List.mem_singleton.mp h]
    exact ⟨rfl, CanardInstance.compose_data_pos _ _⟩
  · obtain ⟨i, -, rfl⟩ := List.mem_map.mp h
    exact ⟨rfl, CanardInstance.compose_data_pos _ _⟩

/-- A transfer goes on the queue as a whole, or as far as there is memory. -/
theorem CanardInstance.enqueueTxFrames_spec (ins : CanardInstance) (h : t.Plain) :
    ∃ allocator items,
      ins.enqueueTxFrames t.canId t.transferId t.crc t.payload =
        .ok ({ ins with allocator, txQueue := pushAll ins.txQueue items },
          if t.frames.length ≤ ins.allocator.freeList.length then (t.frames.length : Int)
          else -canardErrorOutOfMemory) ∧
      items.map CanardTxQueueItem.frame = t.frames.take ins.allocator.freeList.length ∧
      ins.allocator.Takes (items.map CanardTxQueueItem.block) allocator := by
  obtain ⟨allocator, items, hrun, hmap, htakes⟩ := enqueueAll_spec ins
    fun frame (hframe : frame ∈ t.frames) => (forall_frames hframe).2
  refine ⟨allocator, items, ?_, hmap, htakes⟩
  have hframes : transferFrames t.canId t.transferId t.crc t.payload = t.frames := rfl
  rw [enqueueTxFrames_eq (and_extIdMask_of_lt h), hframes, hrun, Call.ok_bind]
  simp only [decide_eq_true_eq]
  rfl

namespace CanardInstance

variable {ins ins' : CanardInstance} {result : Int × UInt8}

theorem same_of_enqueueTxFrames {result : Int} (h : t.Plain)
    (hok : ins.enqueueTxFrames t.canId t.transferId t.crc t.payload = .ok (ins', result)) :
    ins'.nodeId = ins.nodeId ∧ ins'.rxStates = ins.rxStates := by
  obtain ⟨allocator, items, hrun, -, -⟩ := enqueueTxFrames_spec ins h
  rw [hok] at hrun
  cases hrun
  exact ⟨rfl, rfl⟩

/-- Sending changes the queue and takes memory, and that is all. -/
theorem same_of_canardBroadcast {dataTypeId : UInt16}
    (hok : ins.canardBroadcast dataTypeSignature dataTypeId transferId priority payload =
      .ok (ins', result)) :
    ins'.nodeId = ins.nodeId ∧ ins'.rxStates = ins.rxStates := by
  rw [canardBroadcast] at hok
  cases hcompose : composeBroadcast ins.nodeId dataTypeSignature dataTypeId transferId priority
    payload with
  | error e =>
      rw [hcompose] at hok
      cases hok
      exact ⟨rfl, rfl⟩
  | ok t =>
      rw [hcompose] at hok
      obtain ⟨x, henqueue, hok⟩ := Call.bind_eq_ok.mp hok
      cases Call.pure_eq_ok.mp hok
      exact same_of_enqueueTxFrames (plain_of_composeBroadcast hcompose) henqueue

theorem same_of_canardRequestOrRespond {dataTypeId : UInt8} {isRequest : Bool}
    (hok : ins.canardRequestOrRespond destinationNodeId dataTypeSignature dataTypeId transferId
      priority isRequest payload = .ok (ins', result)) :
    ins'.nodeId = ins.nodeId ∧ ins'.rxStates = ins.rxStates := by
  rw [canardRequestOrRespond] at hok
  cases hcompose : composeService ins.nodeId destinationNodeId dataTypeSignature dataTypeId
    transferId priority isRequest payload with
  | error e =>
      rw [hcompose] at hok
      cases hok
      exact ⟨rfl, rfl⟩
  | ok t =>
      rw [hcompose] at hok
      obtain ⟨x, henqueue, hok⟩ := Call.bind_eq_ok.mp hok
      cases Call.pure_eq_ok.mp hok
      exact same_of_enqueueTxFrames (plain_of_composeService hcompose) henqueue

/-- So does taking a frame off. -/
theorem same_of_canardPopTxQueue (hok : ins.canardPopTxQueue = .ok ins') :
    ins'.nodeId = ins.nodeId ∧ ins'.rxStates = ins.rxStates := by
  rw [canardPopTxQueue] at hok
  split at hok
  · cases hok
  · obtain ⟨a, -, hok⟩ := Call.bind_eq_ok.mp hok
    cases Call.pure_eq_ok.mp hok
    exact ⟨rfl, rfl⟩

end CanardInstance

end Compose

end UavcanAdapter
