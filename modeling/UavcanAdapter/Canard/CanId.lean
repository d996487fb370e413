/-
# `Canard.CanId` — what an identifier says

The sender puts priority, data type and nodes into the 29 bits of an
identifier, and the receiver takes them out again.  The fields lie side by
side, so an identifier is a sum of its fields (`toNat_messageId`,
`toNat_serviceId`), and each field can be read back.

The key of a reception state is made the same way, and two frames have the
same key iff they agree in data type, kind, source and destination
(`transferDescriptor_eq_iff`).
-/
import UavcanAdapter.Canard.TxQueue

namespace UavcanAdapter

open Base

/-- `PRIORITY_FROM_ID`. -/
def priorityFromId (x : UInt32) : UInt8 := ((x >>> 24) &&& 0x1F).toUInt8

/-- The identifier of a message. -/
def messageId (priority : UInt8) (dataTypeId : UInt16) (nodeId : UInt8) : UInt32 :=
  (priority.toUInt32 <<< 24) ||| (dataTypeId.toUInt32 <<< 8) ||| nodeId.toUInt32

/-- The identifier of a message from a node without an ID. -/
def anonymousId (priority : UInt8) (discriminator dataTypeId : UInt16) (nodeId : UInt8) : UInt32 :=
  (priority.toUInt32 <<< 24) ||| (discriminator.toUInt32 <<< 9) |||
    ((dataTypeId &&& 0x3).toUInt32 <<< 8) ||| nodeId.toUInt32

/-- The identifier of a request or of a response. -/
def serviceId (priority dataTypeId : UInt8) (isRequest : Bool) (destinationNodeId nodeId : UInt8) :
    UInt32 :=
  (priority.toUInt32 <<< 24) ||| (dataTypeId.toUInt32 <<< 16) ||| (isRequest.toUInt32 <<< 15) |||
    (destinationNodeId.toUInt32 <<< 8) ||| ((1 : UInt32) <<< 7) ||| nodeId.toUInt32

/-- The value of the enumerator. -/
def CanardTransferType.toUInt32 : CanardTransferType → UInt32
  | .response => 0
  | .request => 1
  | .broadcast => 2

/-- `MAKE_TRANSFER_DESCRIPTOR`. -/
def makeTransferDescriptor (dataTypeId : UInt16) (transferType : CanardTransferType)
    (srcNodeId dstNodeId : UInt8) : UInt32 :=
  dataTypeId.toUInt32 ||| (transferType.toUInt32 <<< 16) ||| (srcNodeId.toUInt32 <<< 18) |||
    (dstNodeId.toUInt32 <<< 25)

/-- `destination_node_id`. -/
def destinationOf (id : UInt32) : UInt8 :=
  if extractTransferType id = .broadcast then canardBroadcastNodeId else destIdFromId id

/-- `transfer_descriptor`. -/
def transferDescriptor (id : UInt32) : UInt32 :=
  makeTransferDescriptor (extractDataType id) (extractTransferType id) (sourceIdFromId id)
    (destinationOf id)

/-! ## Fields side by side -/

section Fields

variable {x y id id' : UInt32} {priority nodeId destinationNodeId : UInt8} {dataTypeId : UInt16}

theorem toNat_shiftLeft_of_lt {k : Nat} (hk : k < 32) (h : x.toNat * 2 ^ k < 2 ^ 32) :
    (x <<< UInt32.ofNat k).toNat = x.toNat * 2 ^ k := by
  rw [UInt32.toNat_shiftLeft, UInt32.toNat_ofNat_of_lt' (show k < 2 ^ 32 by omega),
    Nat.mod_eq_of_lt hk, Nat.shiftLeft_eq, Nat.mod_eq_of_lt h]

/-- What lies below a field is added to it. -/
theorem toNat_or_of_dvd (k : Nat) (hx : 2 ^ k ∣ x.toNat) (hy : y.toNat < 2 ^ k) :
    (x ||| y).toNat = x.toNat + y.toNat := by
  obtain ⟨a, ha⟩ := hx
  rw [UInt32.toNat_or, ha, Nat.two_pow_add_eq_or_of_lt hy]

/-- A byte in the identifier. -/
theorem toNat_byte_shiftLeft {b : UInt8} {k : Nat} (hk : k < 32) (h : b.toNat * 2 ^ k < 2 ^ 32) :
    (b.toUInt32 <<< UInt32.ofNat k).toNat = b.toNat * 2 ^ k := by
  have hb : b.toUInt32.toNat = b.toNat := UInt8.toNat_toUInt32 b
  rw [toNat_shiftLeft_of_lt hk (by rwa [hb]), hb]

theorem toNat_messageId (hp : priority.toNat < 32) : (messageId priority dataTypeId nodeId).toNat =
    priority.toNat * 2 ^ 24 + dataTypeId.toNat * 2 ^ 8 + nodeId.toNat := by
  have hd : dataTypeId.toNat < 2 ^ 16 := dataTypeId.toNat_lt
  have hn : nodeId.toUInt32.toNat = nodeId.toNat := UInt8.toNat_toUInt32 nodeId
  have hn' : nodeId.toNat < 2 ^ 8 := nodeId.toNat_lt
  have hpriority : (priority.toUInt32 <<< 24).toNat = priority.toNat * 2 ^ 24 :=
    toNat_byte_shiftLeft (k := 24) (by decide) (by omega)
  have hdata : (dataTypeId.toUInt32 <<< 8).toNat = dataTypeId.toNat * 2 ^ 8 := by
    have hconv : dataTypeId.toUInt32.toNat = dataTypeId.toNat := UInt16.toNat_toUInt32 dataTypeId
    exact (toNat_shiftLeft_of_lt (k := 8) (by decide) (by omega)).trans (by rw [hconv])
  have hupper : ((priority.toUInt32 <<< 24) ||| (dataTypeId.toUInt32 <<< 8)).toNat =
      priority.toNat * 2 ^ 24 + dataTypeId.toNat * 2 ^ 8 := by
    rw [toNat_or_of_dvd 24 ⟨priority.toNat, by omega⟩ (by omega), hpriority, hdata]
  rw [messageId, toNat_or_of_dvd 8 ⟨priority.toNat * 2 ^ 16 + dataTypeId.toNat, by omega⟩
    (by omega), hupper, hn]

theorem toNat_serviceId (dataTypeId : UInt8) (isRequest : Bool) (hp : priority.toNat < 32)
    (hdst : destinationNodeId.toNat < 128) (hn : nodeId.toNat < 128) :
    (serviceId priority dataTypeId isRequest destinationNodeId nodeId).toNat =
      priority.toNat * 2 ^ 24 + dataTypeId.toNat * 2 ^ 16 + isRequest.toNat * 2 ^ 15 +
        destinationNodeId.toNat * 2 ^ 8 + 2 ^ 7 + nodeId.toNat := by
  have hd : dataTypeId.toNat < 2 ^ 8 := dataTypeId.toNat_lt
  have hn' : nodeId.toUInt32.toNat = nodeId.toNat := UInt8.toNat_toUInt32 nodeId
  have hpriority : (priority.toUInt32 <<< 24).toNat = priority.toNat * 2 ^ 24 :=
    toNat_byte_shiftLeft (k := 24) (by decide) (by omega)
  have hdata : (dataTypeId.toUInt32 <<< 16).toNat = dataTypeId.toNat * 2 ^ 16 :=
    toNat_byte_shiftLeft (k := 16) (by decide) (by omega)
  have hkind : (isRequest.toUInt32 <<< 15).toNat = isRequest.toNat * 2 ^ 15 := by
    cases isRequest <;> rfl
  have hdest : (destinationNodeId.toUInt32 <<< 8).toNat = destinationNodeId.toNat * 2 ^ 8 :=
    toNat_byte_shiftLeft (k := 8) (by decide) (by omega)
  have hbit : isRequest.toNat ≤ 1 := Bool.toNat_le isRequest
  have h₁ : ((priority.toUInt32 <<< 24) ||| (dataTypeId.toUInt32 <<< 16)).toNat =
      priority.toNat * 2 ^ 24 + dataTypeId.toNat * 2 ^ 16 := by
    rw [toNat_or_of_dvd 24 ⟨priority.toNat, by omega⟩ (by omega), hpriority, hdata]
  have h₂ : ((priority.toUInt32 <<< 24) ||| (dataTypeId.toUInt32 <<< 16) |||
      (isRequest.toUInt32 <<< 15)).toNat =
      priority.toNat * 2 ^ 24 + dataTypeId.toNat * 2 ^ 16 + isRequest.toNat * 2 ^ 15 := by
    rw [toNat_or_of_dvd 16 ⟨priority.toNat * 2 ^ 8 + dataTypeId.toNat, by omega⟩ (by omega), h₁,
      hkind]
  have h₃ : ((priority.toUInt32 <<< 24) ||| (dataTypeId.toUInt32 <<< 16) |||
      (isRequest.toUInt32 <<< 15) ||| (destinationNodeId.toUInt32 <<< 8)).toNat =
      priority.toNat * 2 ^ 24 + dataTypeId.toNat * 2 ^ 16 + isRequest.toNat * 2 ^ 15 +
        destinationNodeId.toNat * 2 ^ 8 := by
    rw [toNat_or_of_dvd 15 ⟨priority.toNat * 2 ^ 9 + dataTypeId.toNat * 2 + isRequest.toNat,
      by omega⟩ (by omega), h₂, hdest]
  have h₄ : ((priority.toUInt32 <<< 24) ||| (dataTypeId.toUInt32 <<< 16) |||
      (isRequest.toUInt32 <<< 15) ||| (destinationNodeId.toUInt32 <<< 8) |||
      ((1 : UInt32) <<< 7)).toNat =
      priority.toNat * 2 ^ 24 + dataTypeId.toNat * 2 ^ 16 + isRequest.toNat * 2 ^ 15 +
        destinationNodeId.toNat * 2 ^ 8 + 2 ^ 7 := by
    rw [toNat_or_of_dvd 8 ⟨priority.toNat * 2 ^ 16 + dataTypeId.toNat * 2 ^ 8 +
      isRequest.toNat * 2 ^ 7 + destinationNodeId.toNat, by omega⟩ (by decide), h₃]
    rfl
  rw [serviceId, toNat_or_of_dvd 7 ⟨priority.toNat * 2 ^ 17 + dataTypeId.toNat * 2 ^ 9 +
    isRequest.toNat * 2 ^ 8 + destinationNodeId.toNat * 2 + 1, by omega⟩ (by omega), h₄, hn']

/-! ## Reading -/

theorem toNat_field {k n : Nat} (hk : k < 32) (hn : n ≤ 32) :
    ((id >>> UInt32.ofNat k) &&& UInt32.ofNat (2 ^ n - 1)).toNat = id.toNat / 2 ^ k % 2 ^ n := by
  have hpow : 2 ^ n ≤ 2 ^ 32 := Nat.pow_le_pow_right (by decide) hn
  have hpos : 0 < 2 ^ n := Nat.two_pow_pos n
  rw [UInt32.toNat_and, UInt32.toNat_shiftRight,
    UInt32.toNat_ofNat_of_lt' (show k < 2 ^ 32 by omega),
    UInt32.toNat_ofNat_of_lt' (show 2 ^ n - 1 < 2 ^ 32 by omega), Nat.mod_eq_of_lt hk,
    Nat.shiftRight_eq_div_pow, Nat.and_two_pow_sub_one_eq_mod]

theorem toNat_sourceIdFromId : (sourceIdFromId id).toNat = id.toNat % 2 ^ 7 := by
  have hfield : (id &&& 0x7F).toNat = id.toNat % 2 ^ 7 := by
    rw [UInt32.toNat_and, show (0x7F : UInt32).toNat = 2 ^ 7 - 1 from rfl,
      Nat.and_two_pow_sub_one_eq_mod]
  rw [sourceIdFromId, UInt32.toNat_toUInt8, hfield]
  omega

theorem toNat_destIdFromId : (destIdFromId id).toNat = id.toNat / 2 ^ 8 % 2 ^ 7 := by
  rw [destIdFromId, UInt32.toNat_toUInt8]
  exact (congrArg (· % 2 ^ 8) (toNat_field (k := 8) (n := 7) (by decide) (by decide))).trans
    (by omega)

theorem toNat_srvTypeFromId : (srvTypeFromId id).toNat = id.toNat / 2 ^ 16 % 2 ^ 8 := by
  rw [srvTypeFromId, UInt32.toNat_toUInt8]
  exact (congrArg (· % 2 ^ 8) (toNat_field (k := 16) (n := 8) (by decide) (by decide))).trans
    (by omega)

theorem toNat_priorityFromId : (priorityFromId id).toNat = id.toNat / 2 ^ 24 % 2 ^ 5 := by
  rw [priorityFromId, UInt32.toNat_toUInt8]
  exact (congrArg (· % 2 ^ 8) (toNat_field (k := 24) (n := 5) (by decide) (by decide))).trans
    (by omega)

theorem bit_iff {k : Nat} (hk : k < 32) :
    (id >>> UInt32.ofNat k) &&& 0x1 ≠ 0 ↔ id.toNat / 2 ^ k % 2 = 1 := by
  have hfield : ((id >>> UInt32.ofNat k) &&& 0x1).toNat = id.toNat / 2 ^ k % 2 ^ 1 :=
    toNat_field (n := 1) hk (by decide)
  rw [ne_eq, ← UInt32.toNat_inj, hfield, UInt32.toNat_zero]
  omega

theorem serviceNotMsgFromId_eq : serviceNotMsgFromId id = decide (id.toNat / 2 ^ 7 % 2 = 1) := by
  rw [serviceNotMsgFromId, decide_eq_decide]
  exact bit_iff (k := 7) (by decide)

theorem requestNotResponseFromId_eq :
    requestNotResponseFromId id = decide (id.toNat / 2 ^ 15 % 2 = 1) := by
  rw [requestNotResponseFromId, decide_eq_decide]
  exact bit_iff (k := 15) (by decide)

/-! ## Composing and reading -/

theorem and_extIdMask_of_lt (h : id.toNat < 2 ^ 29) : id &&& canardCanExtIdMask = id := by
  rw [← UInt32.toNat_inj, UInt32.toNat_and, show canardCanExtIdMask.toNat = 2 ^ 29 - 1 from rfl,
    Nat.and_two_pow_sub_one_eq_mod, Nat.mod_eq_of_lt h]

/-- The flag of an extended frame. -/
theorem toNat_or_eff (h : id.toNat < 2 ^ 29) : (id ||| canardCanFrameEff).toNat =
    id.toNat + 2 ^ 31 := by
  rw [UInt32.or_comm, toNat_or_of_dvd 31 ⟨1, rfl⟩ (by omega), Nat.add_comm]
  rfl

theorem or_eff_and_eff : (id ||| canardCanFrameEff) &&& canardCanFrameEff ≠ 0 := by
  have heff : canardCanFrameEff = BitSet.single 31 := rfl
  rw [heff, ne_eq, BitSet.and_single_eq_zero_iff (by decide), not_not,
    BitSet.holds_insert (by decide)]
  exact Or.inl rfl

theorem toNat_messageId_lt (dataTypeId : UInt16) (nodeId : UInt8) (hp : priority.toNat < 32) :
    (messageId priority dataTypeId nodeId).toNat < 2 ^ 29 := by
  have hd : dataTypeId.toNat < 2 ^ 16 := dataTypeId.toNat_lt
  have hn : nodeId.toNat < 2 ^ 8 := nodeId.toNat_lt
  rw [toNat_messageId hp]
  omega

theorem extractTransferType_eq : extractTransferType id =
    if id.toNat / 2 ^ 7 % 2 = 1 then
      if id.toNat / 2 ^ 15 % 2 = 1 then .request else .response
    else .broadcast := by
  rw [extractTransferType, serviceNotMsgFromId_eq, requestNotResponseFromId_eq]
  by_cases h : id.toNat / 2 ^ 7 % 2 = 1
  · rw [if_pos h, decide_eq_true h]
    by_cases h' : id.toNat / 2 ^ 15 % 2 = 1
    · rw [if_pos h', decide_eq_true h']
      rfl
    · rw [if_neg h', decide_eq_false h']
      rfl
  · rw [if_neg h, decide_eq_false h]
    rfl

/-- A message is read as it was composed. -/
theorem fields_messageId (hp : priority.toNat < 32) (hpos : 0 < nodeId.toNat)
    (hn : nodeId.toNat < 128)
    (hid : id = messageId priority dataTypeId nodeId ||| canardCanFrameEff) :
    priorityFromId id = priority ∧ extractTransferType id = .broadcast ∧
      extractDataType id = dataTypeId ∧ sourceIdFromId id = nodeId ∧
      destinationOf id = canardBroadcastNodeId := by
  have hd : dataTypeId.toNat < 2 ^ 16 := dataTypeId.toNat_lt
  have hnat := toNat_or_eff (toNat_messageId_lt dataTypeId nodeId hp)
  rw [← hid, toNat_messageId hp] at hnat
  have htype : extractTransferType id = .broadcast := by
    rw [extractTransferType_eq, if_neg (by omega)]
  have hsource : sourceIdFromId id = nodeId := by
    rw [← UInt8.toNat_inj, toNat_sourceIdFromId]
    omega
  have hne : ¬nodeId = canardBroadcastNodeId := by
    rintro rfl
    exact absurd hpos (by decide)
  refine ⟨?_, htype, ?_, hsource, if_pos htype⟩
  · rw [← UInt8.toNat_inj, toNat_priorityFromId]
    omega
  · rw [extractDataType, if_pos htype, hsource, if_neg hne, ← UInt16.toNat_inj,
      toNat_msgTypeFromId]
    omega

/-- A request or a response is read as it was composed. -/
theorem fields_serviceId {dataTypeId : UInt8} {isRequest : Bool} (hp : priority.toNat < 32)
    (hdst : destinationNodeId.toNat < 128) (hn : nodeId.toNat < 128)
    (hid : id = serviceId priority dataTypeId isRequest destinationNodeId nodeId |||
      canardCanFrameEff) :
    priorityFromId id = priority ∧
      extractTransferType id = (if isRequest then .request else .response) ∧
      extractDataType id = dataTypeId.toUInt16 ∧ sourceIdFromId id = nodeId ∧
      destinationOf id = destinationNodeId := by
  have hd : dataTypeId.toNat < 2 ^ 8 := dataTypeId.toNat_lt
  have hbit : isRequest.toNat ≤ 1 := Bool.toNat_le isRequest
  have hsum := toNat_serviceId dataTypeId isRequest hp hdst hn
  have hnat := toNat_or_eff (show (serviceId priority dataTypeId isRequest destinationNodeId
    nodeId).toNat < 2 ^ 29 by omega)
  rw [← hid, hsum] at hnat
  have htype : extractTransferType id = if isRequest then .request else .response := by
    rw [extractTransferType_eq, if_pos (by omega)]
    cases isRequest with
    | true => rw [if_pos (by rw [Bool.toNat_true] at hnat; omega), if_pos rfl]
    | false => rw [if_neg (by rw [Bool.toNat_false] at hnat; omega), if_neg Bool.false_ne_true]
  have hservice : extractTransferType id ≠ .broadcast := by
    rw [htype]
    cases isRequest <;> decide
  refine ⟨?_, htype, ?_, ?_, ?_⟩
  · rw [← UInt8.toNat_inj, toNat_priorityFromId]
    omega
  · rw [extractDataType, if_neg hservice]
    congr 1
    rw [← UInt8.toNat_inj, toNat_srvTypeFromId]
    omega
  · rw [← UInt8.toNat_inj, toNat_sourceIdFromId]
    omega
  · rw [destinationOf, if_neg hservice, ← UInt8.toNat_inj, toNat_destIdFromId]
    omega

/-- A message of a node without an ID has a random part that is not read. -/
theorem fields_anonymousId {discriminator : UInt16} (hp : priority.toNat < 32)
    (hdisc : discriminator &&& 0x7FFE = discriminator) (hd : dataTypeId &&& 0x3 = dataTypeId)
    (hid : id = anonymousId priority discriminator dataTypeId canardBroadcastNodeId |||
      canardCanFrameEff) :
    priorityFromId id = priority ∧ extractTransferType id = .broadcast ∧
      extractDataType id = dataTypeId ∧ sourceIdFromId id = canardBroadcastNodeId ∧
      destinationOf id = canardBroadcastNodeId := by
  have hd4 : dataTypeId.toNat < 4 := by
    have hmask := congrArg UInt16.toNat hd
    rw [UInt16.toNat_and, show (0x3 : UInt16).toNat = 2 ^ 2 - 1 from rfl,
      Nat.and_two_pow_sub_one_eq_mod] at hmask
    omega
  have hmask : discriminator.toNat &&& 0x7FFE = discriminator.toNat := congrArg UInt16.toNat hdisc
  have hlt : discriminator.toNat ≤ 0x7FFE := hmask ▸ Nat.and_le_right
  have heven : discriminator.toNat % 2 = 0 := by
    have hodd := Nat.and_mod_two_eq_one (a := discriminator.toNat) (b := 0x7FFE)
    rw [hmask] at hodd
    omega
  have hdata : ((dataTypeId &&& 0x3).toUInt32 <<< 8).toNat = dataTypeId.toNat * 2 ^ 8 := by
    have hconv : dataTypeId.toUInt32.toNat = dataTypeId.toNat := UInt16.toNat_toUInt32 dataTypeId
    rw [hd]
    exact (toNat_shiftLeft_of_lt (k := 8) (by decide) (by omega)).trans (by rw [hconv])
  have hrandom : (discriminator.toUInt32 <<< 9).toNat = discriminator.toNat * 2 ^ 9 := by
    have hconv : discriminator.toUInt32.toNat = discriminator.toNat :=
      UInt16.toNat_toUInt32 discriminator
    exact (toNat_shiftLeft_of_lt (k := 9) (by decide) (by omega)).trans (by rw [hconv])
  have hpriority : (priority.toUInt32 <<< 24).toNat = priority.toNat * 2 ^ 24 :=
    toNat_byte_shiftLeft (k := 24) (by decide) (by omega)
  have h₁ : ((priority.toUInt32 <<< 24) ||| (discriminator.toUInt32 <<< 9)).toNat =
      priority.toNat * 2 ^ 24 + discriminator.toNat * 2 ^ 9 := by
    rw [toNat_or_of_dvd 24 ⟨priority.toNat, by omega⟩ (by omega), hpriority, hrandom]
  -- the lowest bit of the random part is left to the data type
  have h₂ : ((priority.toUInt32 <<< 24) ||| (discriminator.toUInt32 <<< 9) |||
      ((dataTypeId &&& 0x3).toUInt32 <<< 8)).toNat =
      priority.toNat * 2 ^ 24 + discriminator.toNat * 2 ^ 9 + dataTypeId.toNat * 2 ^ 8 := by
    rw [toNat_or_of_dvd 10 ⟨priority.toNat * 2 ^ 14 + discriminator.toNat / 2, by omega⟩
      (by omega), h₁, hdata]
  have hsum : (anonymousId priority discriminator dataTypeId canardBroadcastNodeId).toNat =
      priority.toNat * 2 ^ 24 + discriminator.toNat * 2 ^ 9 + dataTypeId.toNat * 2 ^ 8 := by
    rw [anonymousId, show canardBroadcastNodeId.toUInt32 = 0 from rfl, UInt32.or_zero, h₂]
  have hnat := toNat_or_eff (show (anonymousId priority discriminator dataTypeId
    canardBroadcastNodeId).toNat < 2 ^ 29 by omega)
  rw [← hid, hsum] at hnat
  have htype : extractTransferType id = .broadcast := by
    rw [extractTransferType_eq, if_neg (by omega)]
  have hsource : sourceIdFromId id = canardBroadcastNodeId := by
    rw [← UInt8.toNat_inj, toNat_sourceIdFromId]
    show _ = 0
    omega
  refine ⟨?_, htype, ?_, hsource, if_pos htype⟩
  · rw [← UInt8.toNat_inj, toNat_priorityFromId]
    omega
  · rw [extractDataType, if_pos htype, if_pos hsource, ← UInt16.toNat_inj, UInt16.toNat_and,
      toNat_msgTypeFromId, show (0x3 : UInt16).toNat = 2 ^ 2 - 1 from rfl,
      Nat.and_two_pow_sub_one_eq_mod]
    omega

/-! ## Keys -/

theorem destinationOf_lt : (destinationOf id).toNat < 2 ^ 7 := by
  rw [destinationOf]
  split
  · decide
  · rw [toNat_destIdFromId]
    omega

theorem CanardTransferType.toUInt32_lt (t : CanardTransferType) : t.toUInt32.toNat < 2 ^ 2 := by
  cases t <;> decide

theorem CanardTransferType.toUInt32_inj {t t' : CanardTransferType}
    (h : t.toUInt32.toNat = t'.toUInt32.toNat) : t = t' := by
  revert h
  cases t <;> cases t' <;> decide

theorem toNat_transferDescriptor : (transferDescriptor id).toNat =
    (extractDataType id).toNat + (extractTransferType id).toUInt32.toNat * 2 ^ 16 +
      (sourceIdFromId id).toNat * 2 ^ 18 + (destinationOf id).toNat * 2 ^ 25 := by
  have htype := (extractTransferType id).toUInt32_lt
  have hdata : (extractDataType id).toNat < 2 ^ 16 := (extractDataType id).toNat_lt
  have hsource : (sourceIdFromId id).toNat < 2 ^ 7 := by
    rw [toNat_sourceIdFromId]
    omega
  have hdest : (destinationOf id).toNat < 2 ^ 7 := destinationOf_lt
  have hdata' : (extractDataType id).toUInt32.toNat = (extractDataType id).toNat :=
    UInt16.toNat_toUInt32 _
  have htype' : ((extractTransferType id).toUInt32 <<< 16).toNat =
      (extractTransferType id).toUInt32.toNat * 2 ^ 16 :=
    toNat_shiftLeft_of_lt (k := 16) (by decide) (by omega)
  have hsource' : ((sourceIdFromId id).toUInt32 <<< 18).toNat =
      (sourceIdFromId id).toNat * 2 ^ 18 := toNat_byte_shiftLeft (k := 18) (by decide) (by omega)
  have hdest' : ((destinationOf id).toUInt32 <<< 25).toNat = (destinationOf id).toNat * 2 ^ 25 :=
    toNat_byte_shiftLeft (k := 25) (by decide) (by omega)
  have h₁ : ((extractDataType id).toUInt32 ||| ((extractTransferType id).toUInt32 <<< 16)).toNat =
      (extractDataType id).toNat + (extractTransferType id).toUInt32.toNat * 2 ^ 16 := by
    rw [UInt32.or_comm, toNat_or_of_dvd 16 ⟨_, htype'.trans (Nat.mul_comm _ _)⟩ (by omega), htype',
      hdata', Nat.add_comm]
  have h₂ : ((extractDataType id).toUInt32 ||| ((extractTransferType id).toUInt32 <<< 16) |||
      ((sourceIdFromId id).toUInt32 <<< 18)).toNat =
      (extractDataType id).toNat + (extractTransferType id).toUInt32.toNat * 2 ^ 16 +
        (sourceIdFromId id).toNat * 2 ^ 18 := by
    rw [UInt32.or_comm, toNat_or_of_dvd 18 ⟨_, hsource'.trans (Nat.mul_comm _ _)⟩ (by omega), h₁,
      hsource', Nat.add_comm]
  rw [transferDescriptor, makeTransferDescriptor, UInt32.or_comm,
    toNat_or_of_dvd 25 ⟨_, hdest'.trans (Nat.mul_comm _ _)⟩ (by omega), h₂, hdest', Nat.add_comm]

/-- Two frames have the same key iff they agree in what the key is made of. -/
theorem transferDescriptor_eq_iff : transferDescriptor id = transferDescriptor id' ↔
    extractDataType id = extractDataType id' ∧ extractTransferType id = extractTransferType id' ∧
      sourceIdFromId id = sourceIdFromId id' ∧ destinationOf id = destinationOf id' := by
  constructor
  · intro h
    have hnat := congrArg UInt32.toNat h
    rw [toNat_transferDescriptor, toNat_transferDescriptor] at hnat
    have hfields : ∀ x : UInt32, (extractDataType x).toNat < 2 ^ 16 ∧
        (extractTransferType x).toUInt32.toNat < 2 ^ 2 ∧ (sourceIdFromId x).toNat < 2 ^ 7 := by
      intro x
      refine ⟨(extractDataType x).toNat_lt, (extractTransferType x).toUInt32_lt, ?_⟩
      rw [toNat_sourceIdFromId]
      omega
    obtain ⟨hdata, htype, hsource⟩ := hfields id
    obtain ⟨hdata', htype', hsource'⟩ := hfields id'
    refine ⟨UInt16.toNat_inj.mp (by omega), CanardTransferType.toUInt32_inj (by omega),
      UInt8.toNat_inj.mp (by omega), UInt8.toNat_inj.mp (by omega)⟩
  · rintro ⟨hdata, htype, hsource, hdest⟩
    rw [transferDescriptor, hdata, htype, hsource, hdest, transferDescriptor]

end Fields

end UavcanAdapter
