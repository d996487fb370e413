/-
# `Node.Canard` — the part of libcanard the node uses

A received transfer is its payload and the fields that identify it; how the
library scatters the payload over its buffers is not modelled.  What the
node sends is recorded as it is handed to the transmit queue, which may turn
it down for want of memory.
-/
import UavcanAdapter.Base.Bits
import UavcanAdapter.Base.Call

namespace UavcanAdapter

open Base

/-- `CANARD_BROADCAST_NODE_ID`. -/
def canardBroadcastNodeId : UInt8 := 0

/-- `CANARD_MIN_NODE_ID`. -/
def canardMinNodeId : UInt8 := 1

/-- `CANARD_MAX_NODE_ID`. -/
def canardMaxNodeId : UInt8 := 127

/-- `CANARD_TRANSFER_PRIORITY_LOW`. -/
def canardTransferPriorityLow : UInt8 := 24

/-- `CANARD_TRANSFER_PRIORITY_LOWEST`. -/
def canardTransferPriorityLowest : UInt8 := 31

/-- `-CANARD_ERROR_INVALID_ARGUMENT`. -/
def canardErrorInvalidArgument : Int := 2

/-- `CANARD_ERROR_NODE_ID_NOT_SET`. -/
def canardErrorNodeIdNotSet : Int := 4

/-- `CanardTransferType`. -/
inductive CanardTransferType
  | response
  | request
  | broadcast
deriving DecidableEq, Repr

/-- `struct CanardRxTransfer`. -/
structure CanardRxTransfer where
  payload : List UInt8
  dataTypeId : UInt16
  transferType : CanardTransferType
  transferId : UInt8
  priority : UInt8 := 0
  sourceNodeId : UInt8
  /-- `payload_len` is a `uint16_t`. -/
  payload_lt : payload.length < 2 ^ 16 := by decide
deriving DecidableEq

theorem CanardRxTransfer.length_nil_lt : ([] : List UInt8).length < 2 ^ 16 := by decide

/-- `canardDecodeScalar` of an unsigned value: none where it leaves the
output untouched.  A value that reaches past the end of the payload is read
as far as there are bits. -/
def canardDecodeScalar (payload : List UInt8) (bitOffset bitLength : Nat) : Option Nat :=
  if bitOffset ≥ payload.length * 8 then none
  else
    let storage := readBits payload bitOffset (min bitLength (payload.length * 8 - bitOffset))
    let storage := if bitLength % 8 ≠ 0 then
        storage.modify (bitLength / 8) (· >>> UInt8.ofNat (8 - bitLength % 8))
      else storage
    some (leNat storage)

/-- `canardEncodeScalar`. -/
def canardEncodeScalar (destination : List UInt8) (bitOffset bitLength value : Nat) : List UInt8 :=
  let storage := leBytes 8 value
  let storage := if bitLength % 8 ≠ 0 then
      storage.modify (bitLength / 8) (· <<< UInt8.ofNat (8 - bitLength % 8))
    else storage
  writeBits destination bitOffset bitLength storage

/-- `incrementTransferID`. -/
def incrementTransferID (id : UInt8) : UInt8 := if id + 1 ≥ 32 then 0 else id + 1

/-- A service transfer on its way to the transmit queue. -/
structure Sent where
  destinationNodeId : UInt8
  dataTypeId : UInt8
  transferId : UInt8
  priority : UInt8
  isRequest : Bool
  payload : List UInt8
deriving DecidableEq, Repr

/-- `canardRequestOrRespond`, with the result of `enqueueTxFrames` as an
argument: the result, the transfer ID afterwards, and what was handed to the
queue. -/
def canardRequestOrRespond (localNodeId : UInt8) (enqueued : Int) (s : Sent) :
    Int × UInt8 × Option Sent :=
  if s.priority > canardTransferPriorityLowest then (-canardErrorInvalidArgument, s.transferId, none)
  else if localNodeId = canardBroadcastNodeId then (-canardErrorNodeIdNotSet, s.transferId, none)
  else (enqueued, if s.isRequest then incrementTransferID s.transferId else s.transferId, some s)

/-- A run of whole bytes at a byte boundary. -/
theorem canardDecodeScalar_bytes (payload : List UInt8) (o k : Nat) :
    canardDecodeScalar payload (8 * o) (8 * k) =
      if payload.length ≤ o then none else some (leNat (slice payload o k)) := by
  rw [canardDecodeScalar]
  by_cases h : payload.length ≤ o
  · rw [if_pos h, if_pos (by omega)]
  · have hmin : min (8 * k) (payload.length * 8 - 8 * o) = 8 * min k (payload.length - o) := by omega
    have hcut : slice payload o (min k (payload.length - o)) = slice payload o k := by
      rw [slice, slice, List.take_eq_take_iff]
      simp
    rw [if_neg h, if_neg (by omega), hmin, readBits_bytes (by omega), hcut]
    simp

/-- One byte of the payload. -/
theorem canardDecodeScalar_byte {payload : List UInt8} {i : Nat} (h : i < payload.length) :
    canardDecodeScalar payload (8 * i) 8 = some (payload.get ⟨i, h⟩).toNat := by
  have hone : slice payload i 1 = [payload.get ⟨i, h⟩] := by
    rw [slice, List.drop_eq_getElem_cons h]
    rfl
  rw [canardDecodeScalar_bytes payload i 1, if_neg (by omega), hone]
  simp [leNat]

/-- The seven bits in front of the lowest bit of the first byte. -/
theorem canardDecodeScalar_seven {b : UInt8} {bs : List UInt8} :
    canardDecodeScalar (b :: bs) 0 7 = some (b.toNat / 2) := by
  have hall : ∀ n : Fin 256,
      ((byteOfBits fun j => decide (j < 7) && n.val.testBit (7 - j)) >>> 1).toNat = n.val / 2 := by
    decide +kernel
  have h := hall ⟨b.toNat, b.toNat_lt⟩
  have hbyte : byteOfBits (fun j => decide (8 * 0 + j < 7) && bitAt (b :: bs) (0 + (8 * 0 + j)))
      = byteOfBits fun j => decide (j < 7) && b.toNat.testBit (7 - j) := by
    apply byteOfBits_congr
    intro j hj
    rw [bitAt, show (0 + (8 * 0 + j)) / 8 = 0 by omega, show (0 + (8 * 0 + j)) % 8 = j by omega]
    simp
  have hmin : min 7 ((b :: bs).length * 8 - 0) = 7 := by
    simp only [List.length_cons]
    omega
  rw [canardDecodeScalar, if_neg (by simp)]
  simp only [hmin, readBits, List.range_one, List.map_cons, List.map_nil, hbyte, Nat.reduceAdd,
    Nat.reduceDiv, Nat.reduceMod, ne_eq]
  exact congrArg some h

/-- A run of whole bytes at a byte boundary. -/
theorem canardEncodeScalar_bytes {destination : List UInt8} {o k v : Nat}
    (h : o + k ≤ destination.length) (hk : k ≤ 8) :
    canardEncodeScalar destination (8 * o) (8 * k) v = patch destination o (leBytes k v) := by
  rw [canardEncodeScalar, if_neg (by omega), writeBits_bytes (by simpa using hk) h, take_leBytes v hk]

theorem incrementTransferID_toNat {id : UInt8} (h : id.toNat < 32) :
    (incrementTransferID id).toNat = (id.toNat + 1) % 32 := by
  have hall : ∀ n : Fin 32, (incrementTransferID (UInt8.ofNat n.val)).toNat = (n.val + 1) % 32 := by
    decide +kernel
  simpa using hall ⟨id.toNat, h⟩

/-- A node with an ID hands every request of an admissible priority to the
queue. -/
theorem canardRequestOrRespond_request {localNodeId : UInt8} {enqueued : Int} {s : Sent}
    (hid : localNodeId ≠ 0) (hprio : s.priority ≤ canardTransferPriorityLowest)
    (hreq : s.isRequest = true) :
    canardRequestOrRespond localNodeId enqueued s
      = (enqueued, incrementTransferID s.transferId, some s) := by
  have hid' : ¬localNodeId = canardBroadcastNodeId := hid
  rw [canardRequestOrRespond, if_neg (UInt8.not_lt.mpr hprio), if_neg hid', if_pos hreq]

end UavcanAdapter
