/-
# `Node.Allocation` — how the node gets its ID

`performDynamicNodeIDAllocation`: while the node has no ID it waits for a
random time, receiving transfers, and then broadcasts the next part of its
unique ID.  How far the exchange has got is kept in one offset, which the
request clears and the handler of Allocation messages sets.

The loop is a machine with a step for each place where time passes.  Its
invariant says that the offset is what the latest Allocation message since
the latest request has confirmed (`Confirmed`); from it follow the contents
of every request and the one way to an ID (`allocation`).
-/
import UavcanAdapter.Base.Machine
import UavcanAdapter.Node.Robustness

namespace UavcanAdapter

open Base

/-- A message on its way to the transmit queue. -/
structure Broadcast where
  dataTypeId : UInt16
  transferId : UInt8
  priority : UInt8
  payload : List UInt8
deriving DecidableEq, Repr

/-- `canardBroadcast`: the transfer ID afterwards, and what was handed to the
queue.  An anonymous node can only send what fits into one frame, of a data
type whose ID has two bits. -/
def canardBroadcast (localNodeId : UInt8) (b : Broadcast) : UInt8 × Option Broadcast :=
  if b.priority > canardTransferPriorityLowest then (b.transferId, none)
  else if localNodeId = canardBroadcastNodeId ∧ b.payload.length > 7 then (b.transferId, none)
  else if localNodeId = canardBroadcastNodeId ∧ b.dataTypeId &&& 3 ≠ b.dataTypeId then
    (b.transferId, none)
  else (incrementTransferID b.transferId, some b)

namespace Node

namespace Allocation

/-- Where `performDynamicNodeIDAllocation` is. -/
inductive Pc
  /-- at the condition of the outer loop -/
  | outer
  /-- at the condition of the inner loop, or in `poll` -/
  | inner
  | done
deriving DecidableEq, Repr

/-- What happened, for the record. -/
inductive Event
  | received (t : CanardRxTransfer)
  | requested (sent : Option Broadcast)
deriving DecidableEq

structure State where
  node : Node
  pc : Pc := .outer
  nodeIdAllocationTransferId : UInt8 := 0
  /-- latest first -/
  history : List Event := []

inductive Input
  /-- the outer loop is entered, or left -/
  | enter (now rand : UInt64)
  /-- `poll` got a transfer off the bus -/
  | receive (env : Env Unit) (t : CanardRxTransfer)
  /-- `poll` returned, and the inner loop looks at the clock -/
  | look (now : UInt64)
  /-- another thread requests a reboot -/
  | reboot

/-- The request: the next part of the unique ID, from `offset` on. -/
def allocationRequest (uniqueId : Vector UInt8 16) (offset : UInt8) : Call (List UInt8) := do
  let request := List.replicate 7 0
  let request := if offset = 0 then request.set 0 1 else request
  let uidSize : UInt8 := 16 - offset
  let uidSize := if uidSize > 6 then 6 else uidSize
  Call.assert (offset.toNat < 16)
  Call.assert (uidSize ≤ 6)
  Call.assert (uidSize > 0)
  Call.assert (uidSize.toNat + offset.toNat ≤ 16)
  let request ← Call.storeAt request 1 (slice uniqueId.toList offset.toNat uidSize.toNat)
  return request.take (uidSize.toNat + 1)

variable (id : NodeIdentity)

/-- The rest of the outer loop: the request is sent. -/
def stepRequest (s : State) : Call State := do
  let payload ← allocationRequest id.hwInfo.uniqueId s.node.nodeIdAllocationUniqueIdOffset
  let (transferId, sent) := canardBroadcast s.node.localNodeId {
    dataTypeId := NodeIDAllocation.dataTypeId
    transferId := s.nodeIdAllocationTransferId
    priority := canardTransferPriorityLow
    payload }
  return {
    node := { s.node with nodeIdAllocationUniqueIdOffset := 0 }
    pc := .outer
    nodeIdAllocationTransferId := transferId
    history := .requested sent :: s.history }

/-- One step.  What does not belong to the place the loop is at has no
effect. -/
def step (s : State) (a : Input) : Call State :=
  match s.pc, a with
  | .outer, .enter now rand =>
      if s.node.rebootRequested ∨ s.node.localNodeId ≠ 0 then .ok { s with pc := .done }
      else
        .ok { s with
          node := { s.node with
            sendNextNodeIdAllocationRequestAt :=
              now + getRandomDurationMicrosecond rand 600000 1000000 }
          pc := .inner }
  | .inner, .receive env t => do
      let node ←
        if s.node.Admits t then do
          let (node, _, _) ← onTransferReception id env t s.node ()
          pure node
        else pure s.node
      return { s with node, history := .received t :: s.history }
  | .inner, .look now =>
      if now < s.node.sendNextNodeIdAllocationRequestAt ∧ s.node.localNodeId = 0 then .ok s
      else if s.node.localNodeId ≠ 0 then .ok { s with pc := .done }
      else stepRequest id s
  | _, .reboot => .ok { s with node := { s.node with rebootRequested := true } }
  | _, _ => .ok s

/-- The node before the first request. -/
def Init (s : State) : Prop :=
  s.node.nodeIdAllocationUniqueIdOffset = 0 ∧ s.pc = .outer ∧ s.history = []

/-- An Allocation message with at most 16 bytes of a unique ID, which does
not give away the ID zero. -/
def Proper (t : CanardRxTransfer) : Prop :=
  t.transferType = .broadcast ∧ t.dataTypeId = NodeIDAllocation.dataTypeId ∧
    1 ≤ t.payload.length ∧ t.payload.length ≤ 17 ∧
    (t.sourceNodeId ≠ 0 → t.payload.length = 17 → 2 ≤ (t.payload.headD 0).toNat)

/-- Only such messages are received. -/
def ProperInput (_ : State) (a : Input) (_ : State) : Prop :=
  ∀ env t, a = .receive env t → Proper t

instance decProper (t : CanardRxTransfer) : Decidable (Proper t) :=
  inferInstanceAs (Decidable (_ ∧ _ ∧ _ ∧ _ ∧ (_ → _ → _)))

instance decProperInput (s : State) (a : Input) (s' : State) : Decidable (ProperInput s a s') :=
  match a with
  | .receive env t =>
      decidable_of_iff (Proper t) ⟨fun h _ _ heq => by cases heq; exact h, fun h => h env t rfl⟩
  | .enter _ _ | .look _ | .reboot => isTrue fun _ _ heq => by cases heq

/-- The loop on a bus with proper Allocation messages. -/
def machine : Machine State Input := (Machine.ofFunction Init (step id)).restrict ProperInput

/-- The unique ID, or the part of one, in an Allocation message. -/
def uniqueIdOf (t : CanardRxTransfer) : List UInt8 := t.payload.drop 1

/-- The message confirms a part of `uniqueId`. -/
def Confirms (uniqueId : List UInt8) (t : CanardRxTransfer) : Prop :=
  t.sourceNodeId ≠ 0 ∧ uniqueIdOf t <+: uniqueId ∧ uniqueIdOf t ≠ uniqueId

instance decConfirms (uniqueId : List UInt8) (t : CanardRxTransfer) :
    Decidable (Confirms uniqueId t) :=
  inferInstanceAs (Decidable (_ ∧ _ ∧ _))

/-- The number of bytes confirmed by the latest message, if nothing was
requested since. -/
def confirmed (uniqueId : List UInt8) : List Event → Nat
  | .received t :: _ => if Confirms uniqueId t then (uniqueIdOf t).length else 0
  | _ => 0

/-! ## One message -/

section Messages

variable {id} {env : Env Unit} {t : CanardRxTransfer} {n n' : Node}

theorem not_fatal (id : NodeIdentity) (ht : Proper t) : ¬Fatal id n t := by
  rintro ⟨-, -, -, hsrc, hlen | hlen | ⟨hlen, -, hlow⟩⟩
  · have := ht.2.2.1
    omega
  · have := ht.2.2.2.1
    omega
  · have := ht.2.2.2.2 hsrc hlen
    omega

/-- The ID that a complete response gives. -/
theorem takeAllocatedNodeId_eq_ok {b : UInt8} {bs : List UInt8} (hpay : t.payload = b :: bs)
    (h : takeAllocatedNodeId t n = .ok n') :
    n'.localNodeId.toNat = b.toNat / 2 := by
  have hb : b.toNat < 256 := b.toNat_lt
  simp only [takeAllocatedNodeId, hpay, canardDecodeScalar_seven, Option.getD_some] at h
  obtain ⟨_, -, h⟩ := Call.bind_eq_ok.mp h
  obtain ⟨localNodeId, hset, h⟩ := Call.bind_eq_ok.mp h
  cases Call.pure_eq_ok.mp h
  rw [canardSetLocalNodeID] at hset
  split at hset
  · cases hset
    exact UInt8.toNat_ofNat_of_lt' (show b.toNat / 2 < 2 ^ 8 by omega)
  · cases hset

/-- What the handler makes of a message: the node's own ID is complete, or
the offset is set to what the message confirms. -/
theorem onAllocation_eq_ok (ht : Proper t) (h0 : n.localNodeId = 0)
    (h : onAllocation id env t n = .ok n') :
    (t.sourceNodeId ≠ 0 ∧ uniqueIdOf t = id.hwInfo.uniqueId.toList ∧
        n'.localNodeId.toNat = (t.payload.headD 0).toNat / 2) ∨
    (n'.localNodeId = 0 ∧ n'.nodeIdAllocationUniqueIdOffset.toNat
      = if Confirms id.hwInfo.uniqueId.toList t then (uniqueIdOf t).length else 0) := by
  rw [onAllocation] at h
  by_cases hsrc : t.sourceNodeId = canardBroadcastNodeId
  · -- an anonymous message confirms nothing
    simp only [if_pos hsrc] at h
    cases Call.pure_eq_ok.mp h
    rw [if_neg (fun hc => hc.1 hsrc)]
    exact Or.inr ⟨h0, rfl⟩
  simp only [if_neg hsrc] at h
  obtain ⟨b, bs, hpay⟩ : ∃ b bs, t.payload = b :: bs := by
    cases hp : t.payload with
    | nil =>
        have := ht.2.2.1
        rw [hp] at this
        simp at this
    | cons b bs => exact ⟨b, bs, rfl⟩
  have hlen : t.payload.length = bs.length + 1 := by rw [hpay, List.length_cons]
  have hbs : bs.length ≤ 16 := by
    have := ht.2.2.2.1
    omega
  have hid : uniqueIdOf t = bs := by rw [uniqueIdOf, hpay, List.drop_succ_cons, List.drop_zero]
  have huid : id.hwInfo.uniqueId.toList.length = 16 := by simp
  obtain ⟨received, hloop, hcopied⟩ :=
    uniqueIdLoop_ok hlen hbs 17 env.stack 0 (by omega) (by omega) (by simp [slice])
  have hslice : slice t.payload 1 bs.length = bs := by
    rw [hpay, slice, List.drop_succ_cons, List.drop_zero, List.take_length]
  rw [hloop, Call.ok_bind, Call.equalPrefix_of_le hbs, Call.ok_bind, hcopied, hslice] at h
  by_cases hmatch : bs = id.hwInfo.uniqueId.toList.take bs.length
  swap
  · simp only [hmatch, decide_false, Bool.not_false, if_true] at h
    cases Call.pure_eq_ok.mp h
    rw [if_neg]
    · exact Or.inr ⟨h0, rfl⟩
    · rintro ⟨-, hpre, -⟩
      rw [hid] at hpre
      exact hmatch (List.prefix_iff_eq_take.mp hpre)
  have hdec : decide (bs = List.take bs.length id.hwInfo.uniqueId.toList) = true :=
    decide_eq_true hmatch
  simp only [hdec, Bool.not_true, Bool.false_eq_true, if_false] at h
  by_cases hpart : bs.length < 16
  · simp only [if_pos hpart] at h
    cases Call.pure_eq_ok.mp h
    have hconf : Confirms id.hwInfo.uniqueId.toList t := by
      refine ⟨hsrc, ?_, fun heq => ?_⟩
      · rw [hid]
        exact List.prefix_iff_eq_take.mpr hmatch
      · rw [hid] at heq
        rw [heq] at hpart
        omega
    rw [if_pos hconf, hid]
    exact Or.inr ⟨h0, UInt8.toNat_ofNat_of_lt' (show bs.length < 2 ^ 8 by omega)⟩
  · simp only [if_neg hpart] at h
    have hfull : bs = id.hwInfo.uniqueId.toList := by
      rw [hmatch, List.take_of_length_le]
      omega
    refine Or.inl ⟨hsrc, by rw [hid, hfull], ?_⟩
    rw [takeAllocatedNodeId_eq_ok hpay h, hpay, List.headD_cons]

/-- `uid_size`. -/
theorem uidSize_toNat {offset : UInt8} (h : offset.toNat < 16) :
    (if 16 - offset > 6 then 6 else 16 - offset).toNat = min 6 (16 - offset.toNat) := by
  have hsub : (16 - offset).toNat = 16 - offset.toNat :=
    UInt8.toNat_sub_of_le _ _ (UInt8.le_iff_toNat_le.mpr (Nat.le_of_lt h))
  split
  · rename_i hgt
    rw [gt_iff_lt, UInt8.lt_iff_toNat_lt, hsub] at hgt
    exact (Nat.min_eq_left (Nat.le_of_lt hgt)).symm
  · rename_i hle
    rw [gt_iff_lt, UInt8.lt_iff_toNat_lt, hsub] at hle
    rw [hsub]
    exact (Nat.min_eq_right (Nat.le_of_not_lt hle)).symm

/-- The assertions hold, and the request has the flag and the next part of
the unique ID in it. -/
theorem allocationRequest_eq {uniqueId : Vector UInt8 16} {offset : UInt8}
    (h : offset.toNat < 16) :
    allocationRequest uniqueId offset = .ok ((if offset.toNat = 0 then 1 else 0) ::
      slice uniqueId.toList offset.toNat (min 6 (16 - offset.toNat))) := by
  have hsize := uidSize_toNat h
  have hzero : offset = 0 ↔ offset.toNat = 0 := UInt8.toNat_inj.symm
  have hle : (if 16 - offset > 6 then 6 else 16 - offset) ≤ (6 : UInt8) := by
    rw [UInt8.le_iff_toNat_le, hsize]
    exact Nat.min_le_left ..
  have hpos : (if 16 - offset > 6 then 6 else 16 - offset) > (0 : UInt8) := by
    rw [gt_iff_lt, UInt8.lt_iff_toNat_lt, hsize]
    exact show 0 < min 6 (16 - offset.toNat) by omega
  have hpart : (slice uniqueId.toList offset.toNat (min 6 (16 - offset.toNat))).length
      = min 6 (16 - offset.toNat) := by
    rw [length_slice, Vector.length_toList]
    omega
  rw [allocationRequest]
  simp only [hzero, hsize, Call.assert_of_true h, Call.assert_of_true hle,
    Call.assert_of_true hpos, Call.assert_of_true (show min 6 (16 - offset.toNat) + offset.toNat ≤ 16
      by omega), Call.ok_bind]
  -- the buffer holds the flag and six zeros
  obtain ⟨flag, hflag, hbuffer⟩ : ∃ flag : UInt8, flag = (if offset.toNat = 0 then 1 else 0) ∧
      (if offset.toNat = 0 then (List.replicate 7 0).set 0 1 else List.replicate 7 0)
        = flag :: List.replicate 6 (0 : UInt8) := by
    refine ⟨_, rfl, ?_⟩
    split <;> rfl
  rw [hbuffer, ← hflag, Call.storeAt_of_le (by rw [hpart]; simp; omega), Call.ok_bind]
  have hpatch : (patch (flag :: List.replicate 6 0) 1 (slice uniqueId.toList offset.toNat
      (min 6 (16 - offset.toNat)))).take (min 6 (16 - offset.toNat) + 1)
        = flag :: slice uniqueId.toList offset.toNat (min 6 (16 - offset.toNat)) := by
    rw [patch, List.append_assoc, List.take_succ_cons, List.take_zero, List.singleton_append,
      List.take_succ_cons, List.take_append_of_le_length (by omega),
      List.take_of_length_le (by omega)]
  rw [hpatch]
  rfl

end Messages

/-! ## The loop -/

section Loop

variable {id} {s s' : State} {a : Input}

/-- As long as the node has no ID, its offset is what was confirmed. -/
def Inv (id : NodeIdentity) (s : State) : Prop :=
  s.node.localNodeId = 0 → s.node.nodeIdAllocationUniqueIdOffset.toNat
    = confirmed id.hwInfo.uniqueId.toList s.history

/-- Less than the whole unique ID is confirmed. -/
theorem confirmed_lt (uniqueId : List UInt8) (hpos : 0 < uniqueId.length) (history : List Event) :
    confirmed uniqueId history < uniqueId.length := by
  cases history with
  | nil => exact hpos
  | cons e es =>
      cases e with
      | requested sent => exact hpos
      | received t =>
          rw [confirmed]
          split
          · rename_i hc
            have hlt : (uniqueIdOf t).length ≠ uniqueId.length :=
              fun heq => hc.2.2 (hc.2.1.eq_of_length heq)
            exact Nat.lt_of_le_of_ne hc.2.1.length_le hlt
          · exact hpos

theorem offset_lt (hI : Inv id s) (h0 : s.node.localNodeId = 0) :
    s.node.nodeIdAllocationUniqueIdOffset.toNat < 16 := by
  have hlt := confirmed_lt id.hwInfo.uniqueId.toList (by simp) s.history
  rw [hI h0]
  simpa using hlt

/-- The node without an ID handles every proper message as an Allocation
message. -/
theorem reception_eq (id : NodeIdentity) (env : Env Unit) {t : CanardRxTransfer} {n : Node}
    (ht : Proper t) (h0 : n.localNodeId = 0) :
    n.Admits t ∧ onTransferReception id env t n ()
      = (onAllocation id env t n >>= fun n' => pure (n', (), [])) := by
  have h0' : n.localNodeId = canardBroadcastNodeId := h0
  constructor
  · rw [Admits, shouldAcceptTransfer, if_pos h0', if_pos ⟨ht.1, ht.2.1⟩]
    rfl
  · rw [onTransferReception, if_pos ⟨h0, ht.1, ht.2.1⟩]

/-- A node with an ID drops them. -/
theorem not_admits {t : CanardRxTransfer} {n : Node} (ht : Proper t) (h0 : n.localNodeId ≠ 0) :
    ¬n.Admits t := by
  have hreq : t.transferType ≠ .request := by rw [ht.1]; decide
  have hresp : t.transferType ≠ .response := by rw [ht.1]; decide
  have h0' : ¬n.localNodeId = canardBroadcastNodeId := h0
  simp [Admits, shouldAcceptTransfer, h0', hreq, hresp]

/-- The request of the state `s`. -/
def request (id : NodeIdentity) (s : State) : Broadcast where
  dataTypeId := NodeIDAllocation.dataTypeId
  transferId := s.nodeIdAllocationTransferId
  priority := canardTransferPriorityLow
  payload := (if s.node.nodeIdAllocationUniqueIdOffset.toNat = 0 then 1 else 0) ::
    slice id.hwInfo.uniqueId.toList s.node.nodeIdAllocationUniqueIdOffset.toNat
      (min 6 (16 - s.node.nodeIdAllocationUniqueIdOffset.toNat))

/-- The request fits into the one frame that an anonymous node has. -/
theorem canardBroadcast_request :
    canardBroadcast s.node.localNodeId (request id s)
      = (incrementTransferID s.nodeIdAllocationTransferId, some (request id s)) := by
  have hlen : (request id s).payload.length ≤ 7 := by
    rw [request, List.length_cons, length_slice]
    omega
  have htype : (request id s).dataTypeId &&& 3 = (request id s).dataTypeId :=
    show NodeIDAllocation.dataTypeId &&& 3 = NodeIDAllocation.dataTypeId by decide
  have hprio : ¬(request id s).priority > canardTransferPriorityLowest :=
    show ¬canardTransferPriorityLow > canardTransferPriorityLowest by decide
  rw [canardBroadcast, if_neg hprio, if_neg (fun h => by omega), if_neg (fun h => h.2 htype)]
  rfl

/-- The steps of the loop on a bus with proper messages, with what is behind
each of them. -/
inductive Effect (id : NodeIdentity) (s : State) : Input → State → Prop
  | quiet {a : Input} {s' : State} : s'.node.localNodeId = s.node.localNodeId →
      s'.node.nodeIdAllocationUniqueIdOffset = s.node.nodeIdAllocationUniqueIdOffset →
      s'.history = s.history → Effect id s a s'
  | dropped {env : Env Unit} {t : CanardRxTransfer} {s' : State} : s.node.localNodeId ≠ 0 →
      s'.node = s.node → s'.history = .received t :: s.history → Effect id s (.receive env t) s'
  | confirmed {env : Env Unit} {t : CanardRxTransfer} {s' : State} : s.node.localNodeId = 0 →
      s'.node.localNodeId = 0 →
      s'.node.nodeIdAllocationUniqueIdOffset.toNat
        = (if Confirms id.hwInfo.uniqueId.toList t then (uniqueIdOf t).length else 0) →
      s'.history = .received t :: s.history → Effect id s (.receive env t) s'
  | assigned {env : Env Unit} {t : CanardRxTransfer} {s' : State} : s.node.localNodeId = 0 →
      t.sourceNodeId ≠ 0 → uniqueIdOf t = id.hwInfo.uniqueId.toList →
      s'.node.localNodeId.toNat = (t.payload.headD 0).toNat / 2 → s'.node.localNodeId ≠ 0 →
      s'.history = .received t :: s.history → Effect id s (.receive env t) s'
  | requested {now : UInt64} {s' : State} : s.node.localNodeId = 0 → s'.node.localNodeId = 0 →
      s'.node.nodeIdAllocationUniqueIdOffset = 0 →
      s'.history = .requested (some (request id s)) :: s.history → Effect id s (.look now) s'

theorem stepRequest_eq (hI : Inv id s) (h0 : s.node.localNodeId = 0) :
    stepRequest id s = .ok {
      node := { s.node with nodeIdAllocationUniqueIdOffset := 0 }
      pc := .outer
      nodeIdAllocationTransferId := incrementTransferID s.nodeIdAllocationTransferId
      history := .requested (some (request id s)) :: s.history } := by
  have hoff := offset_lt hI h0
  have hsent : canardBroadcast s.node.localNodeId (request id s) = _ := canardBroadcast_request
  rw [request] at hsent
  rw [stepRequest, allocationRequest_eq hoff, Call.ok_bind]
  simp only [hsent, request]
  rfl

/-- A message that is received. -/
theorem stepReceive_effect {env : Env Unit} {t : CanardRxTransfer} (ht : Proper t)
    (hpc : s.pc = .inner) : ∃ s', step id s (.receive env t) = .ok s' ∧
      Effect id s (.receive env t) s' := by
  simp only [step, hpc]
  by_cases h0 : s.node.localNodeId = 0
  · obtain ⟨hadm, heq⟩ := reception_eq id env ht h0
    obtain ⟨n', hn'⟩ := (onAllocation_returns_iff h0 ht.1 ht.2.1).mpr (not_fatal id ht)
    rw [if_pos hadm, heq, hn']
    refine ⟨_, rfl, ?_⟩
    rcases onAllocation_eq_ok ht h0 hn' with ⟨hsrc, huid, hnew⟩ | ⟨hnone, hoff⟩
    · refine .assigned h0 hsrc huid hnew (fun hzero => ?_) rfl
      have hlen : t.payload.length = 17 := by
        have hdrop : (uniqueIdOf t).length = t.payload.length - 1 := List.length_drop ..
        have hlen16 : (uniqueIdOf t).length = 16 := by rw [huid, Vector.length_toList]
        have := ht.2.2.1
        omega
      have hlow := ht.2.2.2.2 hsrc hlen
      rw [show n'.localNodeId = 0 from hzero] at hnew
      have : (0 : UInt8).toNat = 0 := rfl
      omega
    · exact .confirmed h0 hnone hoff rfl
  · rw [if_neg (not_admits ht h0)]
    exact ⟨_, rfl, .dropped h0 rfl rfl⟩

/-- Every step returns, and is one of those above. -/
theorem step_effect (hI : Inv id s) (ha : ∀ env t, a = .receive env t → Proper t) :
    ∃ s', step id s a = .ok s' ∧ Effect id s a s' := by
  cases hpc : s.pc with
  | outer =>
      cases a with
      | enter now rand =>
          simp only [step, hpc]
          split
          · exact ⟨_, rfl, .quiet rfl rfl rfl⟩
          · exact ⟨_, rfl, .quiet rfl rfl rfl⟩
      | receive env t | look now | reboot =>
          simp only [step, hpc]
          exact ⟨_, rfl, .quiet rfl rfl rfl⟩
  | inner =>
      cases a with
      | receive env t => exact stepReceive_effect (ha env t rfl) hpc
      | look now =>
          simp only [step, hpc]
          split
          · exact ⟨_, rfl, .quiet rfl rfl rfl⟩
          split
          · exact ⟨_, rfl, .quiet rfl rfl rfl⟩
          · rename_i hzero
            have h0 : s.node.localNodeId = 0 := not_not.mp hzero
            exact ⟨_, stepRequest_eq hI h0, .requested h0 h0 rfl rfl⟩
      | enter now rand | reboot =>
          simp only [step, hpc]
          exact ⟨_, rfl, .quiet rfl rfl rfl⟩
  | done =>
      cases a with
      | enter now rand | receive env t | look now | reboot =>
          simp only [step, hpc]
          exact ⟨_, rfl, .quiet rfl rfl rfl⟩

theorem inv_init (h : Init s) : Inv id s := by
  obtain ⟨hoff, -, hhistory⟩ := h
  intro _
  rw [hoff, hhistory]
  rfl

theorem inv_step (hI : Inv id s) (h : Effect id s a s') : Inv id s' := by
  intro h0
  cases h with
  | quiet hlocal hoff hhistory =>
      rw [hoff, hhistory]
      exact hI (hlocal ▸ h0)
  | dropped hne hnode hhistory =>
      rw [hnode] at h0
      exact absurd h0 hne
  | confirmed _ _ hoff hhistory =>
      rw [hoff, hhistory]
      rfl
  | assigned _ _ _ _ hne _ => exact absurd h0 hne
  | requested _ _ hoff hhistory =>
      rw [hoff, hhistory]
      rfl

theorem inv_reachable (h : (machine id).Reachable s) : Inv id s := by
  refine Machine.Reachable.invariant (I := Inv id) (fun _ => inv_init) ?_ h
  rintro s a s' - hI ⟨hst, hproper⟩
  obtain ⟨s₁, hs₁, heff⟩ := step_effect hI hproper
  have heq : s' = s₁ := Except.ok.inj (hst.symm.trans hs₁)
  rw [heq]
  exact inv_step hI heff

/-- The way to an ID. -/
theorem assigned_of_ne (hr : (machine id).Reachable s) (hst : (machine id).step s a s')
    (hne : s'.node.localNodeId ≠ s.node.localNodeId) :
    ∃ env t, a = .receive env t ∧ s.node.localNodeId = 0 ∧ t.sourceNodeId ≠ 0 ∧
      uniqueIdOf t = id.hwInfo.uniqueId.toList ∧
      s'.node.localNodeId.toNat = (t.payload.headD 0).toNat / 2 := by
  obtain ⟨s₁, hs₁, heff⟩ := step_effect (inv_reachable hr) hst.2
  obtain rfl : s' = s₁ := Except.ok.inj (hst.1.symm.trans hs₁)
  cases heff with
  | quiet hlocal _ _ => exact absurd hlocal hne
  | dropped _ hnode _ => exact absurd (by rw [hnode]) hne
  | confirmed h0 h0' _ _ => exact absurd (h0'.trans h0.symm) hne
  | assigned h0 hsrc huid hid _ _ => exact ⟨_, _, rfl, h0, hsrc, huid, hid⟩
  | requested h0 h0' _ _ => exact absurd (h0'.trans h0.symm) hne

end Loop

/-- On a bus with proper Allocation messages: every step returns, so that the
assertions in front of a request hold; every request carries the part of the
unique ID behind what was confirmed since the request before, with the flag
in the first part; and an ID comes only from a message of another node with
our whole unique ID, so that no message gives one to two different nodes. -/
theorem allocation (id : NodeIdentity) :
    (∀ s a, (machine id).Reachable s → (∀ env t, a = .receive env t → Proper t) →
      Call.Returns (step id s a)) ∧
    (∀ s a s' sent, (machine id).Reachable s → (machine id).step s a s' →
      s'.history = .requested sent :: s.history →
      ∃ b, sent = some b ∧
        b.payload = (if confirmed id.hwInfo.uniqueId.toList s.history = 0 then 1 else 0) ::
          slice id.hwInfo.uniqueId.toList (confirmed id.hwInfo.uniqueId.toList s.history)
            (min 6 (16 - confirmed id.hwInfo.uniqueId.toList s.history))) ∧
    (∀ s a s', (machine id).Reachable s → (machine id).step s a s' →
      s'.node.localNodeId ≠ s.node.localNodeId →
      ∃ env t, a = .receive env t ∧ t.sourceNodeId ≠ 0 ∧
        uniqueIdOf t = id.hwInfo.uniqueId.toList ∧
        s'.node.localNodeId.toNat = (t.payload.headD 0).toNat / 2) ∧
    (∀ id' s s' r r' env env' t, (machine id).Reachable s → (machine id').Reachable r →
      (machine id).step s (.receive env t) s' → (machine id').step r (.receive env' t) r' →
      s'.node.localNodeId ≠ s.node.localNodeId → r'.node.localNodeId ≠ r.node.localNodeId →
      id.hwInfo.uniqueId = id'.hwInfo.uniqueId) := by
  refine ⟨fun s a hr ha => ?_, fun s a s' sent hr hst hsent => ?_, fun s a s' hr hst hne => ?_, ?_⟩
  · obtain ⟨s', hs', -⟩ := step_effect (inv_reachable hr) ha
    exact ⟨s', hs'⟩
  · have hI := inv_reachable hr
    obtain ⟨s₁, hs₁, heff⟩ := step_effect hI hst.2
    obtain rfl : s' = s₁ := Except.ok.inj (hst.1.symm.trans hs₁)
    cases heff with
    | quiet _ _ hhistory =>
        rw [hhistory] at hsent
        simp at hsent
    | dropped _ _ hhistory | confirmed _ _ _ hhistory | assigned _ _ _ _ _ hhistory =>
        rw [hhistory] at hsent
        simp at hsent
    | requested h0 _ _ hhistory =>
        rw [hhistory] at hsent
        obtain ⟨rfl, -⟩ : some (request id s) = sent ∧ True := by simpa using hsent
        exact ⟨_, rfl, by rw [request, hI h0]⟩
  · obtain ⟨env, t, ha, -, hsrc, huid, hid⟩ := assigned_of_ne hr hst hne
    exact ⟨env, t, ha, hsrc, huid, hid⟩
  · intro id' s s' r r' env env' t hs hr hst hst' hne hne'
    obtain ⟨_, t₁, ha, -, -, huid, -⟩ := assigned_of_ne hs hst hne
    obtain ⟨_, t₂, ha', -, -, huid', -⟩ := assigned_of_ne hr hst' hne'
    cases ha
    cases ha'
    exact Vector.toList_inj.mp (huid.symm.trans huid')

/-- A node with the unique ID 0, 1, …, 15. -/
def sampleIdentity : NodeIdentity where
  hwInfo := { uniqueId := Vector.ofFn fun i => UInt8.ofNat i.val }

/-- A message of the allocator, node 1, with the first `n` bytes of that
unique ID, for node 42. -/
def sampleResponse (n : Nat) (h : n ≤ 16 := by decide) : CanardRxTransfer where
  payload := 84 :: (sampleIdentity.hwInfo.uniqueId.toList.take n)
  dataTypeId := NodeIDAllocation.dataTypeId
  transferType := .broadcast
  transferId := 0
  sourceNodeId := 1
  payload_lt := by
    rw [List.length_cons, List.length_take]
    omega

/-- A run of such a node, if all messages are proper. -/
def sampleRun (as : List Input) : Call State :=
  as.foldlM (fun s a =>
    if ProperInput s a s then step sampleIdentity s a else .error .assertion) { node := {} }

theorem reachable_of_sampleRun {as : List Input} {s : State} (h : sampleRun as = .ok s) :
    (machine sampleIdentity).Reachable s := by
  unfold sampleRun at h
  have hrun : Machine.Run ((Machine.ofFunction Init (step sampleIdentity)).restrict
      fun s a _ => ProperInput s a s) { node := {} } as s := Machine.run_of_foldlM Init _ h
  exact hrun.reachable (.init ⟨rfl, rfl, rfl⟩)

/-- Six bytes are confirmed, so the next request carries the next six; the
complete response gives the ID. -/
theorem allocation_six_confirmed :
    ∃ s s' b r', (machine sampleIdentity).step s (.look 2000000) s' ∧
      s'.history = .requested (some b) :: s.history ∧ b.payload = [0, 6, 7, 8, 9, 10, 11] ∧
      (machine sampleIdentity).step s (.receive quiet (sampleResponse 16)) r' ∧
      r'.node.localNodeId.toNat = 42 := by
  obtain ⟨-, hrequest, hassign, -⟩ := allocation sampleIdentity
  obtain ⟨s, hs, hpc, h0, htime, hconf, r', hr', hne⟩ := (by decide +kernel : Call.ReturnsWith
    (sampleRun [.enter 0 0, .receive quiet (sampleResponse 6)]) fun s =>
      s.pc = .inner ∧ s.node.localNodeId = 0 ∧
      ¬(2000000 : UInt64) < s.node.sendNextNodeIdAllocationRequestAt ∧
      confirmed sampleIdentity.hwInfo.uniqueId.toList s.history = 6 ∧
      Call.ReturnsWith (step sampleIdentity s (.receive quiet (sampleResponse 16))) fun r' =>
        r'.node.localNodeId ≠ s.node.localNodeId)
  have hreach := reachable_of_sampleRun hs
  have hlook := stepRequest_eq (inv_reachable hreach) h0
  have hstep : step sampleIdentity s (.look 2000000) = stepRequest sampleIdentity s := by
    simp only [step, hpc, if_neg (fun h : _ ∧ _ => htime h.1), if_neg (not_not.mpr h0)]
  have hlooks : (machine sampleIdentity).step s (.look 2000000) _ :=
    ⟨hstep.trans hlook, fun _ _ h => by cases h⟩
  have hreceives : (machine sampleIdentity).step s (.receive quiet (sampleResponse 16)) r' :=
    ⟨hr', fun _ _ h => by cases h; decide⟩
  obtain ⟨b, hb, hpayload⟩ := hrequest s _ _ _ hreach hlooks rfl
  obtain ⟨env, t, ha, -, -, hid⟩ := hassign s _ r' hreach hreceives hne
  cases ha
  refine ⟨s, _, b, r', hlooks, by rw [← hb], ?_, hreceives, hid⟩
  rw [hpayload, hconf]
  decide

end Allocation

end Node

end UavcanAdapter
