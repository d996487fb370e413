/-
# `Interface.UpdateRequest` — two ways to start an update

A BeginFirmwareUpdate request reaches the bootloader directly, in
`onTransferReception`, or through the application: its handler writes the
server and the path into the shared memory, the board is reset, and `main`
of the bootloader reads them back and starts the node with them.

The path survives both ways unchanged (`copyPath_chars`,
`handledByApplication_eq`).  The node ID of the server does not: a request that
names node 127 is served from the sender of the request on the direct way, and
from node 127 on the other (`handled_alike_iff`).
-/
import UavcanAdapter.Board.System
import UavcanAdapter.Interface.AppShared

namespace UavcanAdapter

open Base

/-! ## C strings -/

/-- The characters of the C string at the start of a buffer. -/
def cString (buffer : List UInt8) : List UInt8 := buffer.takeWhile (· ≠ 0)

/-- `strncpy` into a buffer of `n` characters, the rest of which it zeroes. -/
def strncpy (n : Nat) (src : List UInt8) : Vector UInt8 n :=
  Vector.ofFn fun i => (cString src).getD i 0

/-- The assignment of a C string. -/
def HString.ofCString {capacity : Nat} (p : List UInt8) : HString capacity :=
  (cString p).foldl HString.append .empty

/-! ## The request -/

namespace BeginFirmwareUpdate

/-- `BeginFirmwareUpdate::Request`.  A path is a string of at most 200
characters. -/
structure Request where
  sourceNodeId : UInt8
  path : List UInt8
  length_le : path.length ≤ 200 := by decide
  ne_zero : ∀ c ∈ path, c ≠ 0 := by simp

/-- The request on the bus. -/
def Request.transfer (r : Request) (srcNodeId transferId priority : UInt8) : CanardRxTransfer where
  payload := r.sourceNodeId :: r.path
  dataTypeId := dataTypeId
  transferType := .request
  transferId := transferId
  priority := priority
  sourceNodeId := srcNodeId
  payload_lt := by
    have h := r.length_le
    simp only [List.length_cons]
    omega

/-- The values of the field `error` of the response that the application
sends. -/
inductive ResponseError
  | ok
  | inProgress
deriving DecidableEq, Repr

end BeginFirmwareUpdate

/-! ## Through the application -/

/-- `uavcan::NodeID::Max`. -/
def nodeIdMax : UInt8 := 127

/-- `uavcan::NodeID::isUnicast`. -/
def isUnicast (id : UInt8) : Bool := 1 ≤ id ∧ id ≤ nodeIdMax

/-- What the request handler reads and writes of the application. -/
structure Application where
  canBitRate : UInt32
  nodeId : UInt8
  alreadyInProgress : Bool := false
  rebootRequested : Bool := false

open BootloaderAppInterface (uavcanFileNameMaxLength)

namespace Application

open BeginFirmwareUpdate (Request ResponseError)

/-- The server that the application hands over. -/
def serverNodeId (request : Request) (srcNodeId : UInt8) : UInt8 :=
  if request.sourceNodeId > 0 ∧ request.sourceNodeId ≤ nodeIdMax ∧
      isUnicast request.sourceNodeId = true then request.sourceNodeId
  else srcNodeId

/-- `onFirmwareUpdateRequestedFromUAVCAN`. -/
def onFirmwareUpdateRequestedFromUAVCAN (request : Request) (srcNodeId : UInt8) (app : Application)
    (m : Sram) : Application × Sram × ResponseError :=
  let sourceNodeId := serverNodeId request srcNodeId
  if app.alreadyInProgress then (app, m, .inProgress)
  else
    -- the string of libuavcan ends with a zero
    let name := strncpy uavcanFileNameMaxLength (request.path ++ [0])
    let shared : BootloaderAppInterface.AppShared := {
      canBusSpeed := app.canBitRate
      uavcanNodeId := app.nodeId
      uavcanFwServerNodeId := sourceNodeId
      stayInBootloader := true
      uavcanFileName := name.set (uavcanFileNameMaxLength - 1) 0 }
    let m := BootloaderInterface.writeSharedStruct shared m
    ({ app with rebootRequested := true, alreadyInProgress := true }, m, .ok)

end Application

/-- The part of the bootloader's `main` that reads the shared structure: what
it passes on to `uavcan::init`, if there is anything. -/
def Board.readAppShared (m : Sram) : Option AppShared × Sram :=
  let (appShared, m) := BootloaderAppInterface.readAndErase m
  if appShared.2 then
    let shared := appShared.1
    let name := shared.uavcanFileName.set (uavcanFileNameMaxLength - 1) 0
    (some {
      uavcanNodeId := shared.uavcanNodeId
      uavcanFwServerNodeId := shared.uavcanFwServerNodeId
      uavcanFileName := .ofCString name.toList
      stayInBootloader := shared.stayInBootloader }, m)
  else (none, m)

/-! ## Server and path in the end -/

section Ways

open BeginFirmwareUpdate (Request)

/-- The server and the path that a node has. -/
def Node.source (n : Node) : UInt8 × List UInt8 := (n.remoteServerNodeId, n.firmwareFilePath.chars)

/-- Server and path once the bootloader got the transfer. -/
def handledDirectly {β : Type} (id : NodeIdentity) (env : Env β) (t : CanardRxTransfer) (n : Node)
    (bl : β) : Call (UInt8 × List UInt8) := do
  let (n, _, _) ← n.onTransferReception id env t bl
  return n.source

/-- Server and path once the application got the request and the board was
reset. -/
def handledByApplication (request : Request) (srcNodeId : UInt8) (app : Application) (m : Sram) :
    UInt8 × List UInt8 :=
  let (_, m, _) := app.onFirmwareUpdateRequestedFromUAVCAN request srcNodeId m
  let (shared, _) := Board.readAppShared m
  (Board.startNode (shared.getD {}) {}).source

end Ways

/-! ## The path -/

section Paths

open BeginFirmwareUpdate (Request)

variable {capacity : Nat}

theorem cString_append_zero {l rest : List UInt8} (h : ∀ c ∈ l, c ≠ 0) :
    cString (l ++ 0 :: rest) = l := by
  have hall : ∀ c ∈ l, decide (c ≠ 0) = true := fun c hc => decide_eq_true (h c hc)
  rw [cString, List.takeWhile_append_of_pos hall, List.takeWhile_cons_of_neg (by decide),
    List.append_nil]

/-- A C string that fits is read back as it is. -/
theorem HString.ofCString_chars {l rest : List UInt8} (h : ∀ c ∈ l, c ≠ 0)
    (hlen : l.length ≤ capacity) :
    (HString.ofCString (l ++ 0 :: rest) : HString capacity).chars = l := by
  rw [HString.ofCString, cString_append_zero h, HString.foldl_append_chars, HString.empty_chars,
    List.nil_append, List.take_of_length_le hlen]

theorem strncpy_getElem {n i : Nat} {src : List UInt8} (h : i < (strncpy n src).toList.length) :
    (strncpy n src).toList[i] = (cString src)[i]?.getD 0 := by
  simp [strncpy]

/-- The path of a request in its buffer, the last character of which is
zeroed once more. -/
theorem strncpy_path (r : Request) {n : Nat} (hn : r.path.length ≤ n) :
    ((strncpy (n + 1) (r.path ++ [0])).set n 0).toList
      = r.path ++ 0 :: List.replicate (n - r.path.length) 0 := by
  have hzero : cString (r.path ++ [0]) = r.path := cString_append_zero r.ne_zero
  rw [Vector.toList_set, ← List.replicate_succ]
  apply List.ext_getElem
  · simp
    omega
  · intro i hi hi'
    rw [List.getElem_set, strncpy_getElem, hzero]
    rcases Nat.lt_or_ge i r.path.length with hlt | hge
    · rw [if_neg (by omega), List.getElem_append_left hlt, List.getElem?_eq_getElem hlt,
        Option.getD_some]
    · rw [List.getElem_append_right hge, List.getElem?_eq_none hge, List.getElem_replicate,
        Option.getD_none, ite_self]

/-- The bootloader copies the path of a request as it is. -/
theorem Node.copyPath_chars (r : Request) (srcNodeId transferId priority : UInt8) :
    (copyPath (r.transfer srcNodeId transferId priority)).chars = r.path := by
  have hne : (r.transfer srcNodeId transferId priority).payload ≠ [] := List.cons_ne_nil _ _
  rw [copyPath_of_ne_nil hne]
  exact List.take_of_length_le r.length_le

end Paths

/-! ## Both ways compared -/

section Compare

open BeginFirmwareUpdate (Request)

variable {β : Type} {id : NodeIdentity} {env : Env β} {n : Node} {bl : β}

/-- The server that the bootloader takes from a request it accepts. -/
theorem handledDirectly_eq (r : Request) (srcNodeId transferId priority : UInt8)
    (hnone : n.remoteServerNodeId = 0) (hup : (env.getState bl).2 ≠ .appUpgradeInProgress)
    (hboot : (env.getState bl).2 ≠ .readyToBoot) :
    handledDirectly id env (r.transfer srcNodeId transferId priority) n bl =
      .ok (if r.sourceNodeId = 0 ∨ r.sourceNodeId ≥ canardMaxNodeId then srcNodeId
        else r.sourceNodeId, r.path) := by
  have hlen : 0 < (r.transfer srcNodeId transferId priority).payload.length := by
    simp [Request.transfer]
  have hfirst : canardDecodeScalar (r.transfer srcNodeId transferId priority).payload 0 8
      = some r.sourceNodeId.toNat := canardDecodeScalar_byte hlen
  have hother : ¬(n.localNodeId = canardBroadcastNodeId ∧
      (r.transfer srcNodeId transferId priority).transferType = .broadcast ∧
      (r.transfer srcNodeId transferId priority).dataTypeId = NodeIDAllocation.dataTypeId) := by
    rintro ⟨-, htype, -⟩
    cases htype
  have hinfo : BeginFirmwareUpdate.dataTypeId ≠ GetNodeInfo.dataTypeId := by decide
  have hrestart : BeginFirmwareUpdate.dataTypeId ≠ RestartNode.dataTypeId := by decide
  have hbusy : ¬((env.getState bl).2 = .appUpgradeInProgress ∨ n.remoteServerNodeId ≠ 0) := by
    rintro (h | h)
    · exact hup h
    · exact h hnone
  rw [handledDirectly, Node.onTransferReception, if_neg hother, if_neg (fun h => hinfo h.2),
    if_neg (fun h => hrestart h.2), if_pos ⟨rfl, rfl⟩]
  simp only [Node.onBeginFirmwareUpdate, if_neg hbusy, if_neg hboot, hfirst, Option.getD_some,
    UInt8.ofNat_toNat]
  rw [← Node.copyPath_chars r srcNodeId transferId priority]
  rfl

/-- A board with server `server` and path `path` in its shared memory starts
its node with them, if the server is a node ID. -/
theorem startNode_source {shared : AppShared} (h : canardMinNodeId ≤ shared.uavcanFwServerNodeId ∧
    shared.uavcanFwServerNodeId ≤ canardMaxNodeId) (n : Node) :
    (Board.startNode shared n).source
      = (shared.uavcanFwServerNodeId, shared.uavcanFileName.chars) := by
  rw [Board.startNode]
  simp only [if_pos h]
  split <;> rfl

/-- The server that the application hands over is a node ID. -/
theorem serverNodeId_bounds (r : Request) {srcNodeId : UInt8}
    (hsrc : 1 ≤ srcNodeId ∧ srcNodeId ≤ 127) :
    canardMinNodeId ≤ Application.serverNodeId r srcNodeId ∧
      Application.serverNodeId r srcNodeId ≤ canardMaxNodeId := by
  rw [Application.serverNodeId]
  split
  · rename_i h
    exact of_decide_eq_true h.2.2
  · exact hsrc

/-- The bootloader finds what the application wrote. -/
theorem readAppShared_write (v : BootloaderAppInterface.AppShared) (m : Sram) :
    (Board.readAppShared (BootloaderInterface.writeSharedStruct v m)).1 = some {
      uavcanNodeId := v.uavcanNodeId
      uavcanFwServerNodeId := v.uavcanFwServerNodeId
      uavcanFileName := .ofCString (v.uavcanFileName.set (uavcanFileNameMaxLength - 1) 0).toList
      stayInBootloader := v.stayInBootloader } := by
  have hread : BootloaderAppInterface.readAndErase (BootloaderInterface.writeSharedStruct v m)
      = ((v, true), _) := AppSharedMarshaller.read_of_holds_some AppSharedMarshaller.holds_write
  rw [Board.readAppShared, hread]
  rfl

/-- The server and the path that come through the application. -/
theorem handledByApplication_eq (r : Request) {srcNodeId : UInt8} (app : Application) (m : Sram)
    (hidle : app.alreadyInProgress = false) (hsrc : 1 ≤ srcNodeId ∧ srcNodeId ≤ 127) :
    handledByApplication r srcNodeId app m
      = (Application.serverNodeId r srcNodeId, r.path) := by
  -- the terminator is put twice, before the writing and after the reading
  have htwice : (((strncpy 201 (r.path ++ [0])).set 200 0).set 200 0).toList
      = r.path ++ 0 :: List.replicate (200 - r.path.length) 0 := by
    rw [Vector.set_set, strncpy_path r r.length_le]
  simp only [handledByApplication, Application.onFirmwareUpdateRequestedFromUAVCAN, hidle,
    Bool.false_eq_true, if_false, readAppShared_write, Option.getD_some]
  rw [startNode_source (serverNodeId_bounds r hsrc)]
  simp only [uavcanFileNameMaxLength, Nat.add_one_sub_one]
  rw [htwice, HString.ofCString_chars r.ne_zero r.length_le]

/-- A request that names node 127 is served by node 10, which sent it, on the
one way, and by node 127 on the other. -/
theorem handled_differently :
    let r : Request := { sourceNodeId := 127, path := [0x66, 0x77] }
    let app : Application := { canBitRate := 1000000, nodeId := 5 }
    let m : Sram := ⟨List.replicate 256 0, List.length_replicate ..⟩
    handledDirectly {} quiet (r.transfer 10 0 0) {} () = .ok (10, r.path) ∧
      handledByApplication r 10 app m = (127, r.path) ∧
      handledDirectly {} quiet (r.transfer 10 0 0) {} () ≠ .ok (handledByApplication r 10 app m) := by
  intro r app m
  have hdirect : handledDirectly {} quiet (r.transfer 10 0 0) {} () = .ok (10, r.path) :=
    handledDirectly_eq r 10 0 0 rfl (by decide) (by decide)
  have happ : handledByApplication r 10 app m = (127, r.path) :=
    handledByApplication_eq r app m rfl (by decide)
  refine ⟨hdirect, happ, ?_⟩
  rw [hdirect, happ]
  decide

/-- The two range checks agree on everything but the node ID 127. -/
theorem server_eq_iff (r : Request) (srcNodeId : UInt8) :
    (if r.sourceNodeId = 0 ∨ r.sourceNodeId ≥ canardMaxNodeId then srcNodeId else r.sourceNodeId)
        = Application.serverNodeId r srcNodeId ↔
      r.sourceNodeId ≠ 127 ∨ srcNodeId = 127 := by
  have hmax : canardMaxNodeId = 127 := rfl
  rw [Application.serverNodeId, hmax, nodeIdMax]
  generalize r.sourceNodeId = source
  by_cases h127 : source = 127
  · subst h127
    rw [if_pos (by decide), if_pos (by decide)]
    simp
  · simp only [ne_eq, h127, not_false_eq_true, true_or, iff_true]
    have hne : source.toNat ≠ 127 := fun h => h127 (UInt8.toNat_inj.mp h)
    by_cases hdirect : source = 0 ∨ source ≥ 127
    · rw [if_pos hdirect, if_neg]
      rintro ⟨hpos, hle, -⟩
      rw [gt_iff_lt, UInt8.lt_iff_toNat_lt] at hpos
      rw [UInt8.le_iff_toNat_le] at hle
      rcases hdirect with rfl | hge
      · exact absurd hpos (by decide)
      · rw [ge_iff_le, UInt8.le_iff_toNat_le] at hge
        exact hne (Nat.le_antisymm hle hge)
    · rw [if_neg hdirect, if_pos]
      have hpos : source.toNat ≠ 0 := fun h => hdirect (Or.inl (UInt8.toNat_inj.mp h))
      have hlt : source < 127 := UInt8.not_le.mp fun h => hdirect (Or.inr h)
      have hone : 1 ≤ source := by
        rw [UInt8.le_iff_toNat_le]
        exact Nat.one_le_iff_ne_zero.mpr hpos
      exact ⟨UInt8.lt_of_lt_of_le (by decide) hone, UInt8.le_of_lt hlt,
        decide_eq_true ⟨hone, UInt8.le_of_lt hlt⟩⟩

/-- Both ways give the node the same server and the same path, unless the
request names node 127 as the server and comes from another node. -/
theorem handled_alike_iff {β : Type} (id : NodeIdentity) (env : Env β) (n : Node) (bl : β)
    (app : Application) (m : Sram) (r : Request) (srcNodeId transferId priority : UInt8)
    (hsrc : 1 ≤ srcNodeId ∧ srcNodeId ≤ 127) (hnone : n.remoteServerNodeId = 0)
    (hup : (env.getState bl).2 ≠ .appUpgradeInProgress)
    (hboot : (env.getState bl).2 ≠ .readyToBoot) (hidle : app.alreadyInProgress = false) :
    handledDirectly id env (r.transfer srcNodeId transferId priority) n bl
        = .ok (handledByApplication r srcNodeId app m) ↔
      r.sourceNodeId ≠ 127 ∨ srcNodeId = 127 := by
  rw [handledDirectly_eq r srcNodeId transferId priority hnone hup hboot,
    handledByApplication_eq r app m hidle hsrc, ← server_eq_iff]
  simp only [Except.ok.injEq, Prod.mk.injEq, and_true]

/-- A request that leaves the choice of the server to the bootloader. -/
theorem handled_alike_of_zero :
    let r : Request := { sourceNodeId := 0, path := [0x66, 0x77] }
    handledDirectly {} quiet (r.transfer 10 0 0) {} () = .ok (handledByApplication r 10
      { canBitRate := 1000000, nodeId := 5 } ⟨List.replicate 256 0, List.length_replicate ..⟩) :=
  (handled_alike_iff {} quiet {} () _ _ _ 10 0 0 (by decide) rfl (by decide) (by decide) rfl).mpr
    (Or.inl (by decide))

end Compare

end UavcanAdapter
