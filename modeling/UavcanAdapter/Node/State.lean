/-
# `Node.State` — the state of the update node

The members of `class UAVCANFirmwareUpdateNode` that its message handling
and its downloader read or write, and what they take from outside: the
bootloader, the clock, the random numbers.  The bootloader is reached
through `Env`, so that the node can be put in front of the real controller
as well as in front of one that answers anything.
-/
import UavcanAdapter.Os.HString
import UavcanAdapter.Bootloader.Types
import UavcanAdapter.Node.Canard

namespace UavcanAdapter

open Base

/-- `struct HardwareInfo`. -/
structure HardwareInfo where
  major : UInt8 := 0
  minor : UInt8 := 0
  uniqueId : Vector UInt8 16 := Vector.replicate 16 0
  certificateOfAuthenticity : Vector UInt8 255 := Vector.replicate 255 0
  certificateOfAuthenticityLength : UInt8 := 0

/-- The constant members of the node. -/
structure NodeIdentity where
  nodeName : HString 80 := .empty
  hwInfo : HardwareInfo := {}

/-- `class UAVCANFirmwareUpdateNode`; `rebootRequested` is the flag behind
`os::requestReboot`. -/
structure Node where
  /-- `canard_.node_id` -/
  localNodeId : UInt8 := 0
  remoteServerNodeId : UInt8 := 0
  firmwareFilePath : HString 200 := .empty
  sendNextNodeIdAllocationRequestAt : UInt64 := 0
  nodeIdAllocationUniqueIdOffset : UInt8 := 0
  vendorSpecificStatus : UInt16 := 0
  fileReadTransferId : UInt8 := 0
  readBuffer : Vector UInt8 256 := Vector.replicate 256 0
  readResult : Int := 0
  rebootRequested : Bool := false
deriving DecidableEq

/-- What a message handler finds outside the node: the bootloader, in a state
of type `β`, and the values it reads from clock, random number generator,
transmit queue and uninitialized stack. -/
structure Env (β : Type) where
  getState : β → β × State
  getAppInfo : β → AppInfo × Bool
  /-- the first and the second time stamp taken -/
  now : UInt64 := 0
  later : UInt64 := 0
  /-- the first and the second value of `std::rand` -/
  rand : UInt64 := 0
  rand' : UInt64 := 0
  uptimeSec : UInt32 := 0
  /-- the result of `enqueueTxFrames` -/
  enqueued : Int := 1
  stack : Vector UInt8 16 := Vector.replicate 16 0

/-- An environment in which nothing happens. -/
def quiet : Env Unit where
  getState _ := ((), .bootDelay)
  getAppInfo _ := ({}, false)

/-- `getRandomDurationMicrosecond`. -/
def getRandomDurationMicrosecond (rand lowerBoundUsec upperBoundUsec : UInt64) : UInt64 :=
  lowerBoundUsec + (rand * 128) % (upperBoundUsec - lowerBoundUsec)

end UavcanAdapter
