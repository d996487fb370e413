/-
# `Node.AcceptanceFilter` — what the hardware keeps from the node

The node programs one acceptance filter while it waits for an ID and another
one once it has one.  A frame that the filter drops never reaches libcanard.
So nothing is lost iff every frame passes of which libcanard would make a
transfer that `shouldAcceptTransfer` wants.

Filters and frames are compared bit by bit: `passes_allocationFilter` and
`passes_operationalFilter_iff` say which bits of an identifier the two
filters look at, and the fields of the identifier are ranges of the same bits.
-/
import UavcanAdapter.Base.BitSet
import UavcanAdapter.Node.Reception

namespace UavcanAdapter

open Base

/-! ## Frames -/

/-- `CANARD_CAN_FRAME_EFF`. -/
def canardCanFrameEff : UInt32 := (1 : UInt32) <<< 31

/-- `CANARD_CAN_FRAME_RTR`. -/
def canardCanFrameRtr : UInt32 := (1 : UInt32) <<< 30

/-- `CANARD_CAN_FRAME_ERR`. -/
def canardCanFrameErr : UInt32 := (1 : UInt32) <<< 29

/-- `CanardCANFrame`. -/
structure CanardCANFrame where
  id : UInt32
  data : List UInt8
  data_len_le : data.length ≤ 8 := by decide

def sourceIdFromId (x : UInt32) : UInt8 := (x &&& 0x7F).toUInt8
def serviceNotMsgFromId (x : UInt32) : Bool := (x >>> 7) &&& 0x1 ≠ 0
def requestNotResponseFromId (x : UInt32) : Bool := (x >>> 15) &&& 0x1 ≠ 0
def destIdFromId (x : UInt32) : UInt8 := ((x >>> 8) &&& 0x7F).toUInt8
def msgTypeFromId (x : UInt32) : UInt16 := ((x >>> 8) &&& 0xFFFF).toUInt16
def srvTypeFromId (x : UInt32) : UInt8 := ((x >>> 16) &&& 0xFF).toUInt8

/-- `extractTransferType`. -/
def extractTransferType (id : UInt32) : CanardTransferType :=
  if !serviceNotMsgFromId id then .broadcast
  else if requestNotResponseFromId id then .request
  else .response

/-- `extractDataType`: an anonymous message has two bits of it only. -/
def extractDataType (id : UInt32) : UInt16 :=
  if extractTransferType id = .broadcast then
    if sourceIdFromId id = canardBroadcastNodeId then msgTypeFromId id &&& 0x3
    else msgTypeFromId id
  else (srvTypeFromId id).toUInt16

/-- The arguments of `should_accept`, and whether the frame is the first one of
its transfer, at which it is called. -/
structure Offer where
  dataTypeId : UInt16
  transferType : CanardTransferType
  sourceNodeId : UInt8
  startOfTransfer : Bool

/-- `canardHandleRxFrame`, as far as it needs neither buffers nor transfers that
have begun. -/
def canardHandleRxFrame (localNodeId : UInt8) (frame : CanardCANFrame) : Option Offer :=
  let transferType := extractTransferType frame.id
  let destinationNodeId :=
    if transferType = .broadcast then canardBroadcastNodeId else destIdFromId frame.id
  match frame.data.getLast? with
  | none => none
  | some tailByte =>
      if frame.id &&& canardCanFrameEff = 0 ∨ frame.id &&& canardCanFrameRtr ≠ 0 ∨
          frame.id &&& canardCanFrameErr ≠ 0 then none
      else if transferType ≠ .broadcast ∧ destinationNodeId ≠ localNodeId then none
      else
        some { dataTypeId := extractDataType frame.id
               transferType
               sourceNodeId := sourceIdFromId frame.id
               startOfTransfer := (tailByte >>> 7) &&& 0x1 ≠ 0 }

/-! ## Filters -/

/-- `ICANIface::AcceptanceFilterConfig`. -/
structure AcceptanceFilterConfig where
  id : UInt32 := 0
  mask : UInt32 := 0

/-- The filter lets a frame with this identifier pass. -/
def AcceptanceFilterConfig.Passes (filt : AcceptanceFilterConfig) (id : UInt32) : Prop :=
  id &&& filt.mask = filt.id &&& filt.mask

instance decPasses (filt : AcceptanceFilterConfig) (id : UInt32) : Decidable (filt.Passes id) :=
  inferInstanceAs (Decidable (_ = _))

/-- The filter of `performDynamicNodeIDAllocation`. -/
def allocationFilter : AcceptanceFilterConfig where
  id := 0b00000000000000000000100000000 ||| canardCanFrameEff
  mask := 0b00000000000000000001110000000 ||| canardCanFrameEff ||| canardCanFrameRtr |||
    canardCanFrameErr

/-- The filter of `UAVCANFirmwareUpdateNode::main`. -/
def operationalFilter (confirmedLocalNodeId : UInt8) : AcceptanceFilterConfig where
  id := (0b00000000000000000000010000000 : UInt32) ||| (confirmedLocalNodeId.toUInt32 <<< 8) |||
    canardCanFrameEff
  mask := 0b00000000000000111111110000000 ||| canardCanFrameEff ||| canardCanFrameRtr |||
    canardCanFrameErr

/-! ## The bits of an identifier -/

section Bits

open BitSet

variable {id : UInt32} {nid : UInt8} {i : Nat}

theorem holds_iff_div : Holds id i ↔ id.toNat / 2 ^ i % 2 = 1 := by
  rw [Holds, Nat.testBit_eq_decide_div_mod_eq, decide_eq_true_eq]

theorem serviceNotMsgFromId_iff : serviceNotMsgFromId id = true ↔ Holds id 7 := by
  have hbit : ((id >>> 7) &&& 0x1).toNat = id.toNat / 2 ^ 7 % 2 := by
    rw [UInt32.toNat_and, UInt32.toNat_shiftRight, UInt32.toNat_one, Nat.and_one_is_mod,
      Nat.shiftRight_eq_div_pow]
    rfl
  rw [serviceNotMsgFromId, decide_eq_true_eq, holds_iff_div, ← hbit, ne_eq, ← UInt32.toNat_inj,
    UInt32.toNat_zero]
  omega

theorem extractTransferType_broadcast_iff : extractTransferType id = .broadcast ↔ ¬Holds id 7 := by
  rw [← serviceNotMsgFromId_iff, extractTransferType]
  cases serviceNotMsgFromId id with
  | false => simp
  | true =>
      simp only [Bool.not_true, Bool.false_eq_true, if_false, not_true_eq_false, iff_false]
      split <;> exact fun h => by cases h

theorem testBit_destIdFromId :
    (destIdFromId id).toNat.testBit i = (decide (i < 7) && id.toNat.testBit (8 + i)) := by
  have hnat : (destIdFromId id).toNat = id.toNat / 2 ^ 8 % 2 ^ 7 := by
    rw [destIdFromId, UInt32.toNat_toUInt8, UInt32.toNat_and, UInt32.toNat_shiftRight,
      Nat.shiftRight_eq_div_pow]
    rw [show (0x7F : UInt32).toNat = 2 ^ 7 - 1 from rfl, Nat.and_two_pow_sub_one_eq_mod,
      show (8 : UInt32).toNat % 32 = 8 from rfl]
    omega
  rw [hnat, Nat.testBit_mod_two_pow, Nat.testBit_div_two_pow, Nat.add_comm i 8]

/-- The destination of a service frame lies in bits 8 to 14. -/
theorem destIdFromId_iff (hn : nid ≤ 127) :
    destIdFromId id = nid ↔ ∀ i < 7, Holds id (8 + i) ↔ nid.toNat.testBit i = true := by
  constructor
  · rintro rfl i hi
    rw [testBit_destIdFromId, decide_eq_true hi, Bool.true_and]
    rfl
  · intro h
    apply UInt8.toNat_inj.mp
    apply Nat.eq_of_testBit_eq
    intro i
    rw [testBit_destIdFromId]
    rcases Nat.lt_or_ge i 7 with hi | hi
    · rw [decide_eq_true hi, Bool.true_and]
      exact Bool.eq_iff_iff.mpr (h i hi)
    · have hlt : nid.toNat < 2 ^ i := by
        have hle : nid.toNat ≤ 127 := hn
        exact Nat.lt_of_lt_of_le (show nid.toNat < 2 ^ 7 by omega)
          (Nat.pow_le_pow_right (by decide) hi)
      rw [decide_eq_false (Nat.not_lt.mpr hi), Bool.false_and, Nat.testBit_lt_two_pow hlt]

theorem holds_operationalMask :
    Holds (operationalFilter nid).mask i ↔ (7 ≤ i ∧ i < 15) ∨ (29 ≤ i ∧ i < 32) := by
  have hall : ∀ i < 32, Holds ((0b00000000000000111111110000000 : UInt32) ||| canardCanFrameEff |||
      canardCanFrameRtr ||| canardCanFrameErr) i ↔ (7 ≤ i ∧ i < 15) ∨ (29 ≤ i ∧ i < 32) := by
    decide
  rcases Nat.lt_or_ge i 32 with hi | hi
  · exact hall i hi
  · exact ⟨fun h => absurd h (not_holds_of_le hi), fun h => by omega⟩

theorem holds_allocationMask :
    Holds allocationFilter.mask i ↔ (7 ≤ i ∧ i < 10) ∨ (29 ≤ i ∧ i < 32) := by
  have hall : ∀ i < 32, Holds allocationFilter.mask i ↔ (7 ≤ i ∧ i < 10) ∨ (29 ≤ i ∧ i < 32) := by
    decide
  rcases Nat.lt_or_ge i 32 with hi | hi
  · exact hall i hi
  · exact ⟨fun h => absurd h (not_holds_of_le hi), fun h => by omega⟩

theorem holds_shiftLeft_eight : Holds (nid.toUInt32 <<< 8) i ↔
    8 ≤ i ∧ nid.toNat.testBit (i - 8) = true := by
  have hlt : nid.toNat < 2 ^ 8 := nid.toNat_lt
  have hnat : (nid.toUInt32 <<< 8).toNat = nid.toNat <<< 8 := by
    rw [UInt32.toNat_shiftLeft, UInt8.toNat_toUInt32, show (8 : UInt32).toNat % 32 = 8 from rfl,
      Nat.shiftLeft_eq]
    exact Nat.mod_eq_of_lt (by omega)
  rw [Holds, hnat, Nat.testBit_shiftLeft, Bool.and_eq_true, decide_eq_true_eq]

theorem holds_operationalId :
    Holds (operationalFilter nid).id i ↔
      i = 7 ∨ (8 ≤ i ∧ nid.toNat.testBit (i - 8) = true) ∨ i = 31 := by
  have hseven : (0b00000000000000000000010000000 : UInt32) = single 7 := rfl
  have heff : canardCanFrameEff = single 31 := rfl
  rw [operationalFilter, hseven, heff, holds_or, holds_or, holds_single (by decide),
    holds_single (by decide), holds_shiftLeft_eight, or_assoc]

theorem toNat_msgTypeFromId : (msgTypeFromId id).toNat = id.toNat / 2 ^ 8 % 2 ^ 16 := by
  rw [msgTypeFromId, UInt32.toNat_toUInt16, UInt32.toNat_and, UInt32.toNat_shiftRight,
    Nat.shiftRight_eq_div_pow]
  rw [show (0xFFFF : UInt32).toNat = 2 ^ 16 - 1 from rfl, Nat.and_two_pow_sub_one_eq_mod,
    show (8 : UInt32).toNat % 32 = 8 from rfl]
  omega

/-- The two lowest bits of the data type ID, which every message has. -/
theorem holds_of_extractDataType (htype : extractTransferType id = .broadcast)
    (h : extractDataType id = NodeIDAllocation.dataTypeId) : Holds id 8 ∧ ¬Holds id 9 := by
  have hmsg : (msgTypeFromId id).toNat = id.toNat / 2 ^ 8 % 2 ^ 16 := toNat_msgTypeFromId
  have hlow : (msgTypeFromId id).toNat % 4 = 1 := by
    rw [extractDataType, if_pos htype] at h
    split at h
    · have hanonymous := congrArg UInt16.toNat h
      rw [UInt16.toNat_and, show (0x3 : UInt16).toNat = 2 ^ 2 - 1 from rfl,
        Nat.and_two_pow_sub_one_eq_mod] at hanonymous
      exact hanonymous
    · rw [h]
      rfl
  rw [holds_iff_div, holds_iff_div]
  omega

/-- The operational filter looks at the service bit, the destination and the
three flags. -/
theorem passes_operationalFilter_iff (hn : nid ≤ 127) :
    (operationalFilter nid).Passes id ↔
      Holds id 7 ∧ destIdFromId id = nid ∧ ¬Holds id 29 ∧ ¬Holds id 30 ∧ Holds id 31 := by
  have hbehind : ∀ i, 15 ≤ i → nid.toNat.testBit (i - 8) = false := by
    intro i hi
    have hle : nid.toNat ≤ 127 := hn
    exact Nat.testBit_lt_two_pow (Nat.lt_of_lt_of_le (show nid.toNat < 2 ^ 7 by omega)
      (Nat.pow_le_pow_right (by decide) (show 7 ≤ i - 8 by omega)))
  have hlow : ∀ i < 7, Holds (operationalFilter nid).id (8 + i) ↔ nid.toNat.testBit i = true := by
    intro i hi
    rw [holds_operationalId, Nat.add_sub_cancel_left]
    constructor
    · rintro (h | ⟨-, hbit⟩ | h)
      · omega
      · exact hbit
      · omega
    · exact fun hbit => Or.inr (Or.inl ⟨Nat.le_add_right 8 i, hbit⟩)
  have hflag : ∀ i, 15 ≤ i → (Holds (operationalFilter nid).id i ↔ i = 31) := by
    intro i hi
    rw [holds_operationalId, hbehind i hi]
    constructor
    · rintro (h | ⟨-, hbit⟩ | h)
      · omega
      · cases hbit
      · exact h
    · exact fun h => Or.inr (Or.inr h)
  rw [AcceptanceFilterConfig.Passes, and_eq_and_iff, destIdFromId_iff hn]
  constructor
  · intro h
    have hmask : ∀ i, (7 ≤ i ∧ i < 15) ∨ (29 ≤ i ∧ i < 32) →
        (Holds id i ↔ Holds (operationalFilter nid).id i) :=
      fun i hi => h i (holds_operationalMask.mpr hi)
    refine ⟨(hmask 7 (by omega)).mpr (holds_operationalId.mpr (Or.inl rfl)), ?_, ?_, ?_, ?_⟩
    · intro i hi
      rw [hmask (8 + i) (by omega), hlow i hi]
    · rw [hmask 29 (by omega), hflag 29 (by decide)]
      decide
    · rw [hmask 30 (by omega), hflag 30 (by decide)]
      decide
    · rw [hmask 31 (by omega), hflag 31 (by decide)]
  · rintro ⟨hservice, hdest, herr, hrtr, heff⟩ i hi
    rcases holds_operationalMask.mp hi with ⟨hi, hi'⟩ | ⟨hi, hi'⟩
    · rcases Nat.eq_or_lt_of_le hi with rfl | hi
      · exact ⟨fun _ => holds_operationalId.mpr (Or.inl rfl), fun _ => hservice⟩
      · obtain ⟨j, rfl⟩ : ∃ j, i = 8 + j := ⟨i - 8, by omega⟩
        rw [hdest j (by omega), hlow j (by omega)]
    · rw [hflag i (by omega)]
      obtain rfl | rfl | rfl : i = 29 ∨ i = 30 ∨ i = 31 := by omega
      · exact ⟨fun h => absurd h herr, fun h => by cases h⟩
      · exact ⟨fun h => absurd h hrtr, fun h => by cases h⟩
      · exact ⟨fun _ => rfl, fun _ => heff⟩

/-- The filter of the allocation phase looks at the service bit, the two lowest
bits of the data type ID and the three flags. -/
theorem passes_allocationFilter_iff :
    allocationFilter.Passes id ↔
      ¬Holds id 7 ∧ Holds id 8 ∧ ¬Holds id 9 ∧ ¬Holds id 29 ∧ ¬Holds id 30 ∧ Holds id 31 := by
  have hid : ∀ i < 32, Holds allocationFilter.id i ↔ i = 8 ∨ i = 31 := by decide
  rw [AcceptanceFilterConfig.Passes, and_eq_and_iff]
  constructor
  · intro h
    have hmask : ∀ i, (7 ≤ i ∧ i < 10) ∨ (29 ≤ i ∧ i < 32) → (Holds id i ↔ i = 8 ∨ i = 31) :=
      fun i hi => (h i (holds_allocationMask.mpr hi)).trans (hid i (by omega))
    rw [hmask 7 (by omega), hmask 8 (by omega), hmask 9 (by omega), hmask 29 (by omega),
      hmask 30 (by omega), hmask 31 (by omega)]
    decide
  · rintro ⟨hservice, hbit, hbit', herr, hrtr, heff⟩ i hi
    have hi' := holds_allocationMask.mp hi
    rw [hid i (by omega)]
    obtain rfl | rfl | rfl | rfl | rfl | rfl :
        i = 7 ∨ i = 8 ∨ i = 9 ∨ i = 29 ∨ i = 30 ∨ i = 31 := by omega
    · simp [hservice]
    · simp [hbit]
    · simp [hbit']
    · simp [herr]
    · simp [hrtr]
    · simp [heff]

end Bits

/-! ## What is offered, and what passes -/

section Offers

variable {n : Node} {frame : CanardCANFrame} {offer : Offer} {nid : UInt8}

theorem canardHandleRxFrame_eq_some (h : canardHandleRxFrame nid frame = some offer) :
    ¬BitSet.Holds frame.id 29 ∧ ¬BitSet.Holds frame.id 30 ∧ BitSet.Holds frame.id 31 ∧
      (BitSet.Holds frame.id 7 → destIdFromId frame.id = nid) ∧
      offer.transferType = extractTransferType frame.id ∧
      offer.dataTypeId = extractDataType frame.id := by
  obtain ⟨tailByte, htail⟩ : ∃ tailByte, frame.data.getLast? = some tailByte := by
    cases htail : frame.data.getLast? with
    | none =>
        simp only [canardHandleRxFrame, htail] at h
        cases h
    | some tailByte => exact ⟨tailByte, rfl⟩
  simp only [canardHandleRxFrame, htail] at h
  by_cases hflags : frame.id &&& canardCanFrameEff = 0 ∨ frame.id &&& canardCanFrameRtr ≠ 0 ∨
      frame.id &&& canardCanFrameErr ≠ 0
  · rw [if_pos hflags] at h
    cases h
  rw [if_neg hflags] at h
  by_cases haddress : extractTransferType frame.id ≠ .broadcast ∧
      (if extractTransferType frame.id = .broadcast then canardBroadcastNodeId
        else destIdFromId frame.id) ≠ nid
  · rw [if_pos haddress] at h
    cases h
  rw [if_neg haddress] at h
  cases h
  rw [not_or, not_or] at hflags
  obtain ⟨heff, hrtr, herr⟩ := hflags
  rw [show canardCanFrameEff = BitSet.single 31 from rfl,
    BitSet.and_single_eq_zero_iff (by decide), not_not] at heff
  rw [show canardCanFrameRtr = BitSet.single 30 from rfl, ne_eq, not_not,
    BitSet.and_single_eq_zero_iff (by decide)] at hrtr
  rw [show canardCanFrameErr = BitSet.single 29 from rfl, ne_eq, not_not,
    BitSet.and_single_eq_zero_iff (by decide)] at herr
  refine ⟨herr, hrtr, heff, fun hservice => ?_, rfl, rfl⟩
  have htype : extractTransferType frame.id ≠ .broadcast :=
    fun hb => extractTransferType_broadcast_iff.mp hb hservice
  rw [if_neg htype] at haddress
  exact not_not.mp fun hdest => haddress ⟨htype, hdest⟩

/-- The node wants the transfer. -/
def Node.Wants (n : Node) (offer : Offer) : Prop :=
  (n.shouldAcceptTransfer offer.dataTypeId offer.transferType).isSome = true

instance Node.decWants (n : Node) (offer : Offer) : Decidable (n.Wants offer) :=
  inferInstanceAs (Decidable (_ = true))

/-- A node with an ID wants no messages. -/
theorem Node.Wants.service (h : n.Wants offer) (hid : n.localNodeId ≠ 0) :
    offer.transferType ≠ .broadcast := by
  intro htype
  have hid' : ¬n.localNodeId = canardBroadcastNodeId := hid
  simp [Node.Wants, Node.shouldAcceptTransfer, hid', htype] at h

/-- A node without one wants Allocation messages only. -/
theorem Node.Wants.broadcast (h : n.Wants offer) (hid : n.localNodeId = 0) :
    offer.transferType = .broadcast ∧ offer.dataTypeId = NodeIDAllocation.dataTypeId := by
  have hid' : n.localNodeId = canardBroadcastNodeId := hid
  rw [Node.Wants, Node.shouldAcceptTransfer, if_pos hid'] at h
  by_contra hnot
  rw [if_neg hnot] at h
  cases h

/-- The filters drop no frame of a transfer that the node wants, and a node with
an ID gets no frame but those of services that are addressed to it. -/
theorem filters_sufficient :
    (∀ (n : Node) (frame : CanardCANFrame) (offer : Offer), 1 ≤ n.localNodeId →
      n.localNodeId ≤ 127 → canardHandleRxFrame n.localNodeId frame = some offer →
        n.Wants offer → (operationalFilter n.localNodeId).Passes frame.id) ∧
    (∀ (n : Node) (frame : CanardCANFrame) (offer : Offer), n.localNodeId = 0 →
      canardHandleRxFrame n.localNodeId frame = some offer →
        n.Wants offer → allocationFilter.Passes frame.id) ∧
    (∀ (nid : UInt8) (id : UInt32), 1 ≤ nid → nid ≤ 127 → (operationalFilter nid).Passes id →
      serviceNotMsgFromId id = true ∧ destIdFromId id = nid) := by
  refine ⟨?_, ?_, ?_⟩
  · intro n frame offer hpos hle hoffer hwants
    obtain ⟨herr, hrtr, heff, haddress, htype, -⟩ := canardHandleRxFrame_eq_some hoffer
    have hid : n.localNodeId ≠ 0 := by
      intro h0
      rw [h0] at hpos
      exact absurd hpos (by decide)
    have hservice : BitSet.Holds frame.id 7 := by
      have hne := hwants.service hid
      rw [htype] at hne
      exact not_not.mp fun h => hne (extractTransferType_broadcast_iff.mpr h)
    exact (passes_operationalFilter_iff hle).mpr
      ⟨hservice, haddress hservice, herr, hrtr, heff⟩
  · intro n frame offer hid hoffer hwants
    obtain ⟨herr, hrtr, heff, -, htype, hdtid⟩ := canardHandleRxFrame_eq_some hoffer
    obtain ⟨hbroadcast, halloc⟩ := hwants.broadcast hid
    rw [htype] at hbroadcast
    rw [hdtid] at halloc
    obtain ⟨hbit, hbit'⟩ := holds_of_extractDataType hbroadcast halloc
    exact passes_allocationFilter_iff.mpr
      ⟨extractTransferType_broadcast_iff.mp hbroadcast, hbit, hbit', herr, hrtr, heff⟩
  · intro nid id _ hle hpass
    obtain ⟨hservice, hdest, -⟩ := (passes_operationalFilter_iff hle).mp hpass
    exact ⟨serviceNotMsgFromId_iff.mpr hservice, hdest⟩

/-- A GetNodeInfo request to node 42, and an anonymous Allocation message. -/
theorem filters_sufficient_frames :
    (operationalFilter 42).Passes 0x9801AA81 ∧ allocationFilter.Passes 0x9E00D500 ∧
      destIdFromId 0x9801AA81 = 42 := by
  have hrequest := filters_sufficient.1 { localNodeId := 42 }
    { id := 0x9801AA81, data := [0xC0] } _ (by decide) (by decide) rfl (by decide)
  have halloc := filters_sufficient.2.1 {} { id := 0x9E00D500, data := [0, 0xC0] } _ rfl rfl
    (by decide)
  exact ⟨hrequest, halloc, (filters_sufficient.2.2 42 _ (by decide) (by decide) hrequest).2⟩

end Offers

end UavcanAdapter
