/-
# `Canard.Types` — the state of the library

An instance has a pool of memory, a queue of frames to send, and one state
for each kind of transfer it has seen the beginning of.  The C lists are
lists here, and each of their elements knows the block it lies in.

The sizes of the two storages of a payload are those of the target, where
pointers have four bytes: what is left of a block behind the other fields.
-/
import UavcanAdapter.Canard.TxQueue

namespace UavcanAdapter

open Base

/-- `-CANARD_ERROR_OUT_OF_MEMORY`. -/
def canardErrorOutOfMemory : Int := 3

/-- `CANARD_CAN_FRAME_MAX_DATA_LEN`. -/
def canardCanFrameMaxDataLen : Nat := 8

/-- `TRANSFER_TIMEOUT_USEC`. -/
def transferTimeoutUsec : UInt64 := 2000000

/-- `offsetof(CanardBufferBlock, data)`. -/
def offsetOfData : Nat := 4

/-- `offsetof(CanardRxState, buffer_head)`. -/
def offsetOfBufferHead : Nat := 26

/-- `CANARD_BUFFER_BLOCK_DATA_SIZE`. -/
abbrev canardBufferBlockDataSize : Nat := canardMemBlockSize - offsetOfData

/-- `CANARD_MULTIFRAME_RX_PAYLOAD_HEAD_SIZE`. -/
abbrev canardMultiframeRxPayloadHeadSize : Nat := canardMemBlockSize - offsetOfBufferHead

-- the assertion of `canardInit`
example : canardMultiframeRxPayloadHeadSize ≥ 6 := by decide

/-- `CanardBufferBlock`. -/
structure CanardBufferBlock where
  block : Nat
  data : Vector UInt8 canardBufferBlockDataSize

/-- `CanardRxState`. -/
structure CanardRxState where
  block : Nat
  bufferBlocks : List CanardBufferBlock := []
  timestampUsec : UInt64 := 0
  dtidTtSnidDnid : UInt32
  payloadCrc : UInt16 := 0
  calculatedCrc : UInt16 := 0
  payloadLen : BitVec 10 := 0
  transferId : BitVec 5 := 0
  nextToggle : Bool := false
  bufferHead : Vector UInt8 canardMultiframeRxPayloadHeadSize

/-- `CanardInstance`, without the pointers to the application. -/
structure CanardInstance where
  nodeId : UInt8 := canardBroadcastNodeId
  allocator : CanardPoolAllocator
  rxStates : List CanardRxState := []
  txQueue : List CanardTxQueueItem := []

/-- `canardInit`. -/
def canardInit (memArenaSize : Nat) : CanardInstance where
  allocator := .initPoolAllocator (min (memArenaSize / canardMemBlockSize) 0xFFFF)

/-- `createBufferBlock`. -/
def createBufferBlock (garbage : Garbage) (a : CanardPoolAllocator) :
    Option (CanardBufferBlock × CanardPoolAllocator) :=
  a.allocateBlock.map fun (block, a) =>
    ({ block, data := .ofFn fun i => garbage block (offsetOfData + i) }, a)

/-- `createRxState`. -/
def createRxState (garbage : Garbage) (a : CanardPoolAllocator) (transferDescriptor : UInt32) :
    Option (CanardRxState × CanardPoolAllocator) :=
  a.allocateBlock.map fun (block, a) =>
    ({ block
       dtidTtSnidDnid := transferDescriptor
       bufferHead := .ofFn fun i => garbage block (offsetOfBufferHead + i) }, a)

/-! ## The tail byte -/

/-- `TRANSFER_ID_FROM_TAIL_BYTE`. -/
def transferIdFromTailByte (x : UInt8) : UInt8 := x &&& 0x1F

/-- `IS_START_OF_TRANSFER`. -/
def isStartOfTransfer (x : UInt8) : Bool := (x >>> 7) &&& 0x1 ≠ 0

/-- `IS_END_OF_TRANSFER`. -/
def isEndOfTransfer (x : UInt8) : Bool := (x >>> 6) &&& 0x1 ≠ 0

/-- `TOGGLE_BIT`. -/
def toggleBit (x : UInt8) : Bool := (x >>> 5) &&& 0x1 ≠ 0

/-- The tail byte as the sender composes it. -/
def tailByte (sotEot : UInt8) (toggle : Bool) (transferId : UInt8) : UInt8 :=
  sotEot ||| (toggle.toUInt8 <<< 5) ||| (transferId &&& 31)

/-- What is composed is what is read. -/
theorem fields_tailByte {sotEot : UInt8} (toggle : Bool) (transferId : UInt8)
    (hsot : sotEot = 0xC0 ∨ sotEot = 0x80 ∨ sotEot = 0x40 ∨ sotEot = 0) :
    transferIdFromTailByte (tailByte sotEot toggle transferId) = transferId &&& 31 ∧
    toggleBit (tailByte sotEot toggle transferId) = toggle ∧
    isStartOfTransfer (tailByte sotEot toggle transferId) =
      decide (sotEot = 0xC0 ∨ sotEot = 0x80) ∧
    isEndOfTransfer (tailByte sotEot toggle transferId) =
      decide (sotEot = 0xC0 ∨ sotEot = 0x40) := by
  have hall : ∀ (t : Fin 256) (toggle : Bool) (s : UInt8),
      s ∈ [0xC0, 0x80, 0x40, (0 : UInt8)] →
      transferIdFromTailByte (tailByte s toggle (UInt8.ofNat t.val)) = UInt8.ofNat t.val &&& 31 ∧
      toggleBit (tailByte s toggle (UInt8.ofNat t.val)) = toggle ∧
      isStartOfTransfer (tailByte s toggle (UInt8.ofNat t.val)) = decide (s = 0xC0 ∨ s = 0x80) ∧
      isEndOfTransfer (tailByte s toggle (UInt8.ofNat t.val)) = decide (s = 0xC0 ∨ s = 0x40) := by
    intro t toggle s hs
    revert t toggle
    fin_cases hs <;> decide +kernel
  have h := hall ⟨transferId.toNat, transferId.toNat_lt⟩ toggle sotEot (by simpa using hsot)
  simpa using h

end UavcanAdapter
