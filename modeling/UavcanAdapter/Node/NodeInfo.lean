/-
# `Node.NodeInfo` — the GetNodeInfo response

The response in its own terms: its fields, the parts they are serialized to,
and a reader that takes them from their places in the data type definition.
Reading undoes serializing (`Response.read_serialize`).

The handler packs scalars at bit offsets and copies the rest between them,
into a buffer of zeros.  What it sends is the serialized form of the response
that the node, the bootloader and the hardware describe (`onGetNodeInfo_eq`),
so that a reader finds all of it again.
-/
import UavcanAdapter.Node.Reception

namespace UavcanAdapter

open Base

/-! ## The data type -/

/-- `uavcan.protocol.NodeStatus`. -/
structure NodeStatus where
  uptimeSec : UInt32
  health : Fin 4
  mode : Fin 8
  subMode : Fin 8
  vendorSpecificStatusCode : UInt16
deriving DecidableEq, Repr

/-- `uavcan.protocol.SoftwareVersion`. -/
structure SoftwareVersion where
  major : UInt8 := 0
  minor : UInt8 := 0
  optionalFieldFlags : UInt8 := 0
  vcsCommit : UInt32 := 0
  imageCrc : UInt64 := 0
deriving DecidableEq, Repr

/-- `uavcan.protocol.HardwareVersion`. -/
structure HardwareVersion where
  major : UInt8
  minor : UInt8
  uniqueId : Vector UInt8 16
  certificateOfAuthenticity : HString 255
deriving DecidableEq

namespace GetNodeInfo

/-- `uavcan.protocol.GetNodeInfo.Response`. -/
structure Response where
  nodeStatus : NodeStatus
  softwareVersion : SoftwareVersion
  hardwareVersion : HardwareVersion
  name : HString 80
deriving DecidableEq

end GetNodeInfo

namespace NodeStatus

/-- Health, mode and submode share a byte. -/
def statusByte (s : NodeStatus) : UInt8 :=
  UInt8.ofNat (s.health.val * 64 + s.mode.val * 8 + s.subMode.val)

def parts (s : NodeStatus) : List (List UInt8) :=
  [leBytes 4 s.uptimeSec.toNat, [s.statusByte], leBytes 2 s.vendorSpecificStatusCode.toNat]

theorem bits_statusByte (s : NodeStatus) :
    Fin.ofNat 4 (bitsNat [s.statusByte] 0 2) = s.health ∧
      Fin.ofNat 8 (bitsNat [s.statusByte] 2 3) = s.mode ∧
      Fin.ofNat 8 (bitsNat [s.statusByte] 5 3) = s.subMode := by
  have hall : ∀ (h : Fin 4) (m : Fin 8) (b : Fin 8),
      Fin.ofNat 4 (bitsNat [UInt8.ofNat (h.val * 64 + m.val * 8 + b.val)] 0 2) = h ∧
        Fin.ofNat 8 (bitsNat [UInt8.ofNat (h.val * 64 + m.val * 8 + b.val)] 2 3) = m ∧
        Fin.ofNat 8 (bitsNat [UInt8.ofNat (h.val * 64 + m.val * 8 + b.val)] 5 3) = b := by
    decide +kernel
  exact hall s.health s.mode s.subMode

end NodeStatus

def SoftwareVersion.parts (v : SoftwareVersion) : List (List UInt8) :=
  [leBytes 1 v.major.toNat, leBytes 1 v.minor.toNat, leBytes 1 v.optionalFieldFlags.toNat,
    leBytes 4 v.vcsCommit.toNat, leBytes 8 v.imageCrc.toNat]

def HardwareVersion.parts (v : HardwareVersion) : List (List UInt8) :=
  [leBytes 1 v.major.toNat, leBytes 1 v.minor.toNat, v.uniqueId.toList,
    leBytes 1 v.certificateOfAuthenticity.chars.length, v.certificateOfAuthenticity.chars]

namespace GetNodeInfo.Response

def parts (r : Response) : List (List UInt8) :=
  r.nodeStatus.parts ++ r.softwareVersion.parts ++ r.hardwareVersion.parts ++ [r.name.chars]

/-- The name goes to the end without its length. -/
def serialize (r : Response) : List UInt8 := r.parts.flatten

/-- A response out of a payload that is long enough for its certificate. -/
def read (payload : List UInt8) : Option Response :=
  let coaLength := scalarAt payload 40 1
  if 41 + coaLength ≤ payload.length then
    some {
      nodeStatus :=
        { uptimeSec := UInt32.ofNat (scalarAt payload 0 4)
          health := Fin.ofNat 4 (bitsNat payload 32 2)
          mode := Fin.ofNat 8 (bitsNat payload 34 3)
          subMode := Fin.ofNat 8 (bitsNat payload 37 3)
          vendorSpecificStatusCode := UInt16.ofNat (scalarAt payload 5 2) }
      softwareVersion :=
        { major := UInt8.ofNat (scalarAt payload 7 1)
          minor := UInt8.ofNat (scalarAt payload 8 1)
          optionalFieldFlags := UInt8.ofNat (scalarAt payload 9 1)
          vcsCommit := UInt32.ofNat (scalarAt payload 10 4)
          imageCrc := UInt64.ofNat (scalarAt payload 14 8) }
      hardwareVersion :=
        { major := UInt8.ofNat (scalarAt payload 22 1)
          minor := UInt8.ofNat (scalarAt payload 23 1)
          uniqueId := Vector.ofFn fun i => (slice payload 24 16).getD i 0
          certificateOfAuthenticity := .cut (slice payload 41 coaLength) }
      name := .cut (payload.drop (41 + coaLength)) }
  else none

section

variable (r : Response)

/-- The lengths of the parts; only the last two depend on the response. -/
theorem map_length_parts : r.parts.map List.length =
    [4, 1, 2, 1, 1, 1, 4, 8, 1, 1, 16, 1, r.hardwareVersion.certificateOfAuthenticity.chars.length,
      r.name.chars.length] := by
  simp [parts, NodeStatus.parts, SoftwareVersion.parts, HardwareVersion.parts]

/-- Where a part lies. -/
theorem offset_part {i o : Nat} (h : ([4, 1, 2, 1, 1, 1, 4, 8, 1, 1, 16, 1,
    r.hardwareVersion.certificateOfAuthenticity.chars.length,
    r.name.chars.length].take i).sum = o) : ((r.parts.map List.length).take i).sum = o := by
  rw [r.map_length_parts]
  exact h

theorem length_serialize :
    r.serialize.length = 41 + r.hardwareVersion.certificateOfAuthenticity.chars.length +
      r.name.chars.length := by
  rw [serialize, List.length_flatten, r.map_length_parts]
  simp only [List.sum_cons, List.sum_nil]
  omega

theorem read_nodeStatus :
    UInt32.ofNat (scalarAt r.serialize 0 4) = r.nodeStatus.uptimeSec ∧
      bitsNat r.serialize 32 2 = bitsNat [r.nodeStatus.statusByte] 0 2 ∧
      bitsNat r.serialize 34 3 = bitsNat [r.nodeStatus.statusByte] 2 3 ∧
      bitsNat r.serialize 37 3 = bitsNat [r.nodeStatus.statusByte] 5 3 ∧
      UInt16.ofNat (scalarAt r.serialize 5 2) = r.nodeStatus.vendorSpecificStatusCode := by
  have huptime : scalarAt r.serialize 0 4 = r.nodeStatus.uptimeSec.toNat :=
    scalarAt_part 0 rfl (r.offset_part rfl) r.nodeStatus.uptimeSec.toNat_lt
  have hvendor : scalarAt r.serialize 5 2 = r.nodeStatus.vendorSpecificStatusCode.toNat :=
    scalarAt_part 2 rfl (r.offset_part rfl) r.nodeStatus.vendorSpecificStatusCode.toNat_lt
  have hbyte : slice r.serialize 4 1 = [r.nodeStatus.statusByte] :=
    slice_part 1 rfl (r.offset_part rfl) rfl
  have hbits (a n : Nat) (h : a + n ≤ 8) :
      bitsNat r.serialize (32 + a) n = bitsNat [r.nodeStatus.statusByte] a n := by
    have hrun : bitsNat (slice r.serialize 4 1) a n = bitsNat r.serialize (32 + a) n :=
      bitsNat_slice h
    rw [← hrun, hbyte]
  rw [huptime, hvendor, UInt32.ofNat_toNat, UInt16.ofNat_toNat]
  exact ⟨rfl, hbits 0 2 (by decide), hbits 2 3 (by decide), hbits 5 3 (by decide), rfl⟩

theorem read_softwareVersion :
    UInt8.ofNat (scalarAt r.serialize 7 1) = r.softwareVersion.major ∧
      UInt8.ofNat (scalarAt r.serialize 8 1) = r.softwareVersion.minor ∧
      UInt8.ofNat (scalarAt r.serialize 9 1) = r.softwareVersion.optionalFieldFlags ∧
      UInt32.ofNat (scalarAt r.serialize 10 4) = r.softwareVersion.vcsCommit ∧
      UInt64.ofNat (scalarAt r.serialize 14 8) = r.softwareVersion.imageCrc := by
  have hmajor : scalarAt r.serialize 7 1 = r.softwareVersion.major.toNat :=
    scalarAt_part 3 rfl (r.offset_part rfl) r.softwareVersion.major.toNat_lt
  have hminor : scalarAt r.serialize 8 1 = r.softwareVersion.minor.toNat :=
    scalarAt_part 4 rfl (r.offset_part rfl) r.softwareVersion.minor.toNat_lt
  have hflags : scalarAt r.serialize 9 1 = r.softwareVersion.optionalFieldFlags.toNat :=
    scalarAt_part 5 rfl (r.offset_part rfl) r.softwareVersion.optionalFieldFlags.toNat_lt
  have hvcs : scalarAt r.serialize 10 4 = r.softwareVersion.vcsCommit.toNat :=
    scalarAt_part 6 rfl (r.offset_part rfl) r.softwareVersion.vcsCommit.toNat_lt
  have hcrc : scalarAt r.serialize 14 8 = r.softwareVersion.imageCrc.toNat :=
    scalarAt_part 7 rfl (r.offset_part rfl) r.softwareVersion.imageCrc.toNat_lt
  rw [hmajor, hminor, hflags, hvcs, hcrc]
  simp only [UInt8.ofNat_toNat, UInt32.ofNat_toNat, UInt64.ofNat_toNat, and_self]

theorem read_hardwareVersion :
    UInt8.ofNat (scalarAt r.serialize 22 1) = r.hardwareVersion.major ∧
      UInt8.ofNat (scalarAt r.serialize 23 1) = r.hardwareVersion.minor ∧
      slice r.serialize 24 16 = r.hardwareVersion.uniqueId.toList ∧
      scalarAt r.serialize 40 1 = r.hardwareVersion.certificateOfAuthenticity.chars.length ∧
      slice r.serialize 41 r.hardwareVersion.certificateOfAuthenticity.chars.length =
        r.hardwareVersion.certificateOfAuthenticity.chars := by
  have hmajor : scalarAt r.serialize 22 1 = r.hardwareVersion.major.toNat :=
    scalarAt_part 8 rfl (r.offset_part rfl) r.hardwareVersion.major.toNat_lt
  have hminor : scalarAt r.serialize 23 1 = r.hardwareVersion.minor.toNat :=
    scalarAt_part 9 rfl (r.offset_part rfl) r.hardwareVersion.minor.toNat_lt
  have hcoa := r.hardwareVersion.certificateOfAuthenticity.length_le
  rw [hmajor, hminor, UInt8.ofNat_toNat, UInt8.ofNat_toNat]
  refine ⟨rfl, rfl, ?_, ?_, ?_⟩
  · exact slice_part 10 rfl (r.offset_part rfl) Vector.length_toList
  · exact scalarAt_part 11 rfl (r.offset_part rfl) (by omega)
  · exact slice_part 12 rfl (r.offset_part rfl) rfl

theorem read_name :
    r.serialize.drop (41 + r.hardwareVersion.certificateOfAuthenticity.chars.length) =
      r.name.chars := by
  have hsum : ((r.parts.map List.length).take 13).sum =
      41 + r.hardwareVersion.certificateOfAuthenticity.chars.length := by
    rw [r.map_length_parts]
    simp only [List.take_succ_cons, List.take_zero, List.sum_cons, List.sum_nil]
    omega
  have hname : slice r.serialize (41 + r.hardwareVersion.certificateOfAuthenticity.chars.length)
      r.name.chars.length = r.name.chars := slice_part 13 rfl hsum rfl
  have hlen := r.length_serialize
  rw [slice, List.take_of_length_le (by rw [List.length_drop]; omega)] at hname
  exact hname

/-- Reading undoes serializing. -/
theorem read_serialize : read r.serialize = some r := by
  obtain ⟨huptime, hhealth, hmode, hsub, hvendor⟩ := r.read_nodeStatus
  obtain ⟨hsmajor, hsminor, hflags, hvcs, hcrc⟩ := r.read_softwareVersion
  obtain ⟨hmajor, hminor, huid, hlen, hcoa⟩ := r.read_hardwareVersion
  obtain ⟨hh, hm, hb⟩ := r.nodeStatus.bits_statusByte
  have huid' : (Vector.ofFn fun i : Fin 16 => r.hardwareVersion.uniqueId.toList.getD i 0) =
      r.hardwareVersion.uniqueId := by
    apply Vector.ext
    intro i hi
    rw [Vector.getElem_ofFn, List.getD_eq_getElem _ _ (by simpa using hi)]
    simp
  have hlong : 41 + scalarAt r.serialize 40 1 ≤ r.serialize.length := by
    rw [hlen, r.length_serialize]
    omega
  rw [read]
  simp only [if_pos hlong]
  rw [hlen, huptime, hhealth, hmode, hsub, hvendor, hsmajor, hsminor, hflags, hvcs, hcrc, hmajor,
    hminor, huid, hcoa, r.read_name, hh, hm, hb, huid', HString.cut_chars, HString.cut_chars]

end

end GetNodeInfo.Response

/-! ## The handler -/

namespace Node

variable {β : Type} {id : NodeIdentity} {env : Env β} {t : CanardRxTransfer} {n : Node} {bl : β}
  {size o : Nat} {w : List UInt8}

/-- The status of the node in bootloader state `st`. -/
def nodeStatus (env : Env β) (n : Node) (st : State) : NodeStatus where
  uptimeSec := env.uptimeSec
  health := Fin.ofNat 4 (healthAndMode st).1
  mode := Fin.ofNat 8 (healthAndMode st).2
  subMode := 0
  vendorSpecificStatusCode := n.vendorSpecificStatus

/-- The version of the application, if there is one; both optional fields
are in use then. -/
def softwareVersion (swSuccess : AppInfo × Bool) : SoftwareVersion :=
  if swSuccess.2 then
    { major := swSuccess.1.majorVersion
      minor := swSuccess.1.minorVersion
      optionalFieldFlags := 3
      vcsCommit := swSuccess.1.vcsCommit
      imageCrc := swSuccess.1.imageCrc }
  else {}

theorem softwareVersion_eq_zero_iff {swSuccess : AppInfo × Bool} :
    softwareVersion swSuccess = {} ↔ swSuccess.2 = false := by
  rw [softwareVersion]
  cases hsome : swSuccess.2 with
  | false => exact ⟨fun _ => rfl, fun _ => rfl⟩
  | true =>
      constructor
      · intro h
        have hflags : (3 : UInt8) = 0 := congrArg SoftwareVersion.optionalFieldFlags h
        exact absurd hflags (by decide)
      · intro h
        cases h

/-- The hardware the node runs on. -/
def hardwareVersion (hw : HardwareInfo) : HardwareVersion where
  major := hw.major
  minor := hw.minor
  uniqueId := hw.uniqueId
  certificateOfAuthenticity :=
    .cut (hw.certificateOfAuthenticity.toList.take hw.certificateOfAuthenticityLength.toNat)

/-- What the node says about itself. -/
def nodeInfo (id : NodeIdentity) (env : Env β) (n : Node) (bl : β) : GetNodeInfo.Response where
  nodeStatus := nodeStatus env n (env.getState bl).2
  softwareVersion := softwareVersion (env.getAppInfo (env.getState bl).1)
  hardwareVersion := hardwareVersion id.hwInfo
  name := id.nodeName

/-- The fields of a status byte, one after the other. -/
theorem encode_statusByte (env : Env β) (n : Node) (st : State) :
    canardEncodeScalar (canardEncodeScalar [0] 0 2 (healthAndMode st).1) 2 3 (healthAndMode st).2 =
      [(nodeStatus env n st).statusByte] := by
  have hall : ∀ st : State,
      canardEncodeScalar (canardEncodeScalar [0] 0 2 (healthAndMode st).1) 2 3 (healthAndMode st).2
        = [UInt8.ofNat ((Fin.ofNat 4 (healthAndMode st).1).val * 64 +
            (Fin.ofNat 8 (healthAndMode st).2).val * 8 + 0)] := by
    intro st
    cases st <;> decide +kernel
  exact hall st

theorem makeNodeStatusMessage_eq {st : State} (h : 7 ≤ size) :
    makeNodeStatusMessage env n st (filled size []) =
      .ok (filled size (nodeStatus env n st).parts.flatten) := by
  have hup : (leBytes 4 env.uptimeSec.toNat).length = 4 := length_leBytes _ _
  have hclear : Call.storeAt (filled size []) 0 (List.replicate 7 0) = .ok (filled size []) := by
    rw [storeAt_filled List.length_nil (by rw [List.length_replicate]; omega),
      filled_zeros (by rw [List.length_nil]; omega)]
  have huptime : encodeAt (filled size []) 0 32 env.uptimeSec.toNat =
      .ok (filled size (leBytes 4 env.uptimeSec.toNat)) :=
    encodeAt_filled (o := 0) (k := 4) List.length_nil (by omega) (by omega)
  have hbyte : filled size (leBytes 4 env.uptimeSec.toNat) =
      filled size (leBytes 4 env.uptimeSec.toNat ++ [0]) :=
    (filled_zeros (k := 1) (by omega)).symm
  have hhealth := encodeAt_inside (b := 0) (a := 0) (k := 2) (v := (healthAndMode st).1) hup
    (by omega) (show 4 + 1 ≤ size by omega)
  obtain ⟨b, hb⟩ : ∃ b, canardEncodeScalar [0] 0 2 (healthAndMode st).1 = [b] :=
    ⟨_, rfl⟩
  have hmode := encodeAt_inside (b := b) (a := 2) (k := 3) (v := (healthAndMode st).2) hup
    (by omega) (show 4 + 1 ≤ size by omega)
  rw [← hb, encode_statusByte env n st, hb] at hmode
  have hvendor : encodeAt (filled size (leBytes 4 env.uptimeSec.toNat ++
        [(nodeStatus env n st).statusByte])) 40 16 n.vendorSpecificStatus.toNat =
      .ok (filled size (nodeStatus env n st).parts.flatten) := by
    refine (encodeAt_filled (o := 5) (k := 2) ?_ (by omega) (by omega)).trans ?_
    · rw [List.length_append, hup, List.length_singleton]
    · simp only [NodeStatus.parts, List.flatten_cons, List.flatten_nil, List.append_nil,
        List.append_assoc]
      rfl
  rw [hb] at hhealth
  rw [makeNodeStatusMessage, hclear, Call.ok_bind, huptime, Call.ok_bind, hbyte]
  exact Call.bind_eq_ok.mpr ⟨_, hhealth, Call.bind_eq_ok.mpr ⟨_, hmode, hvendor⟩⟩

theorem encodeSoftwareVersion_eq {swSuccess : AppInfo × Bool} (hw : w.length = 7)
    (h : 22 ≤ size) : encodeSoftwareVersion swSuccess (filled size w) =
      .ok (filled size (w ++ (softwareVersion swSuccess).parts.flatten)) := by
  rw [encodeSoftwareVersion, softwareVersion]
  cases swSuccess.2 with
  | false =>
      have hzero : (SoftwareVersion.parts {}).flatten = List.replicate 15 0 := by decide
      rw [if_neg Bool.false_ne_true, if_neg Bool.false_ne_true, hzero,
        filled_zeros (by omega)]
  | true =>
      obtain ⟨sw, -⟩ := swSuccess
      rw [if_pos rfl, if_pos rfl]
      simp only [SoftwareVersion.parts, List.flatten_cons, List.flatten_nil, List.append_nil,
        leBytes_one]
      have hvcs {w : List UInt8} (hw : w.length = 10) :
          encodeAt (filled size w) 80 32 sw.vcsCommit.toNat =
            .ok (filled size (w ++ leBytes 4 sw.vcsCommit.toNat)) :=
        encodeAt_filled (o := 10) (k := 4) hw (by omega) (by omega)
      have hcrc {w : List UInt8} (hw : w.length = 14) :
          encodeAt (filled size w) 112 64 sw.imageCrc.toNat =
            .ok (filled size (w ++ leBytes 8 sw.imageCrc.toNat)) :=
        encodeAt_filled (o := 14) (k := 8) hw (by omega) (by omega)
      rw [storeAt_filled hw, Call.ok_bind, storeAt_filled, Call.ok_bind, storeAt_filled,
        Call.ok_bind, hvcs, Call.ok_bind, hcrc]
      · simp only [List.append_assoc]
      all_goals simp only [List.length_append, length_leBytes, List.length_singleton, hw] <;> omega

/-- No certificate is cut off. -/
theorem certificate_chars (hw : HardwareInfo) :
    (hardwareVersion hw).certificateOfAuthenticity.chars =
        hw.certificateOfAuthenticity.toList.take hw.certificateOfAuthenticityLength.toNat ∧
      (hardwareVersion hw).certificateOfAuthenticity.chars.length =
        hw.certificateOfAuthenticityLength.toNat := by
  have hlt : hw.certificateOfAuthenticityLength.toNat < 256 := UInt8.toNat_lt _
  have hlen : (hw.certificateOfAuthenticity.toList.take
      hw.certificateOfAuthenticityLength.toNat).length =
        hw.certificateOfAuthenticityLength.toNat := by
    rw [List.length_take, Vector.length_toList]
    omega
  have hchars : (hardwareVersion hw).certificateOfAuthenticity.chars =
      hw.certificateOfAuthenticity.toList.take hw.certificateOfAuthenticityLength.toNat :=
    List.take_of_length_le (by omega)
  exact ⟨hchars, by rw [hchars, hlen]⟩

/-- The pieces the handler copies make up the serialized response. -/
theorem serialize_nodeInfo : (nodeInfo id env n bl).serialize =
    (nodeStatus env n (env.getState bl).2).parts.flatten ++
      (softwareVersion (env.getAppInfo (env.getState bl).1)).parts.flatten ++
      [id.hwInfo.major] ++ [id.hwInfo.minor] ++ id.hwInfo.uniqueId.toList ++
      [id.hwInfo.certificateOfAuthenticityLength] ++
      id.hwInfo.certificateOfAuthenticity.toList.take
        id.hwInfo.certificateOfAuthenticityLength.toNat ++ id.nodeName.chars := by
  obtain ⟨hchars, hlen⟩ := certificate_chars id.hwInfo
  rw [hchars] at hlen
  simp only [GetNodeInfo.Response.serialize, GetNodeInfo.Response.parts, nodeInfo,
    HardwareVersion.parts, hchars, hlen, leBytes_one, List.flatten_append, List.flatten_cons,
    List.flatten_nil, List.append_nil, List.append_assoc]
  rfl

theorem length_serialize_nodeInfo : (nodeInfo id env n bl).serialize.length =
    41 + id.hwInfo.certificateOfAuthenticityLength.toNat + id.nodeName.chars.length := by
  rw [GetNodeInfo.Response.length_serialize, ← (certificate_chars id.hwInfo).2]
  rfl

/-- The longest certificate and the longest name still fit. -/
theorem length_serialize_nodeInfo_le :
    (nodeInfo id env n bl).serialize.length ≤ GetNodeInfo.maxSizeBytesResponse := by
  have hcoa : id.hwInfo.certificateOfAuthenticityLength.toNat < 256 := UInt8.toNat_lt _
  have hname := id.nodeName.length_le
  have hmax : GetNodeInfo.maxSizeBytesResponse = 377 := rfl
  rw [length_serialize_nodeInfo]
  omega

/-- The handler answers with what the node says about itself. -/
theorem onGetNodeInfo_eq : onGetNodeInfo id env t n bl =
    .ok ((env.getState bl).1, respond env t n 1 (nodeInfo id env n bl).serialize) := by
  have hmax : GetNodeInfo.maxSizeBytesResponse = 377 := rfl
  have hcoa : id.hwInfo.certificateOfAuthenticityLength.toNat < 256 := UInt8.toNat_lt _
  have hcert : (id.hwInfo.certificateOfAuthenticity.toList.take
      id.hwInfo.certificateOfAuthenticityLength.toNat).length =
        id.hwInfo.certificateOfAuthenticityLength.toNat := by
    rw [← (certificate_chars id.hwInfo).1, (certificate_chars id.hwInfo).2]
  have hname := id.nodeName.length_le
  have hstatus : (nodeStatus env n (env.getState bl).2).parts.flatten.length = 7 := by
    simp [NodeStatus.parts]
  have hsw : (softwareVersion (env.getAppInfo (env.getState bl).1)).parts.flatten.length = 15 := by
    simp [SoftwareVersion.parts]
  have huid : id.hwInfo.uniqueId.toList.length = 16 := Vector.length_toList
  rw [onGetNodeInfo]
  simp only
  rw [← filled_nil, makeNodeStatusMessage_eq (by omega), Call.ok_bind,
    encodeSoftwareVersion_eq hstatus (by omega), Call.ok_bind, storeAt_filled, Call.ok_bind,
    storeAt_filled, Call.ok_bind, storeAt_filled, Call.ok_bind, storeAt_filled, Call.ok_bind,
    storeAt_filled, Call.ok_bind, storeAt_filled, Call.ok_bind]
  · have hlen : (nodeInfo id env n bl).serialize.length = _ := length_serialize_nodeInfo
    rw [Call.assert_of_true (by omega), Call.ok_bind, ← serialize_nodeInfo, ← hlen, take_filled]
    rfl
  all_goals
    simp only [List.length_append, List.length_singleton, hstatus, hsw, huid, hcert, hmax] <;> omega

/-- A GetNodeInfo request is answered with a response that fits into the
buffer, and in it a reader finds the status, the versions, the unique ID, the
certificate and the name.  There is no software version in it iff there is no
application. -/
theorem getNodeInfo_round_trip (htype : t.transferType = .request)
    (hdata : t.dataTypeId = GetNodeInfo.dataTypeId) :
    ∃ payload r,
      onTransferReception id env t n bl =
        .ok (n, (env.getState bl).1, respond env t n 1 payload) ∧
      payload.length ≤ GetNodeInfo.maxSizeBytesResponse ∧
      GetNodeInfo.Response.read payload = some r ∧
      r.nodeStatus =
        { uptimeSec := env.uptimeSec
          health := Fin.ofNat 4 (healthAndMode (env.getState bl).2).1
          mode := Fin.ofNat 8 (healthAndMode (env.getState bl).2).2
          subMode := 0
          vendorSpecificStatusCode := n.vendorSpecificStatus } ∧
      r.softwareVersion = softwareVersion (env.getAppInfo (env.getState bl).1) ∧
      (r.softwareVersion = {} ↔ (env.getAppInfo (env.getState bl).1).2 = false) ∧
      r.hardwareVersion.major = id.hwInfo.major ∧
      r.hardwareVersion.minor = id.hwInfo.minor ∧
      r.hardwareVersion.uniqueId = id.hwInfo.uniqueId ∧
      r.hardwareVersion.certificateOfAuthenticity.chars =
        id.hwInfo.certificateOfAuthenticity.toList.take
          id.hwInfo.certificateOfAuthenticityLength.toNat ∧
      r.name = id.nodeName := by
  have hbroadcast : ¬(n.localNodeId = canardBroadcastNodeId ∧ t.transferType = .broadcast ∧
      t.dataTypeId = NodeIDAllocation.dataTypeId) := by
    rintro ⟨-, hno, -⟩
    rw [htype] at hno
    cases hno
  have hrec : onTransferReception id env t n bl =
      .ok (n, (env.getState bl).1, respond env t n 1 (nodeInfo id env n bl).serialize) := by
    rw [onTransferReception, if_neg hbroadcast, if_pos ⟨htype, hdata⟩, onGetNodeInfo_eq]
    rfl
  exact ⟨_, nodeInfo id env n bl, hrec, length_serialize_nodeInfo_le,
    GetNodeInfo.Response.read_serialize _, rfl, rfl, softwareVersion_eq_zero_iff, rfl, rfl, rfl,
    (certificate_chars id.hwInfo).1, rfl⟩

/-- A bootloader with an application. -/
def withApp : Env Unit where
  getState _ := ((), .readyToBoot)
  getAppInfo _ := ({ imageCrc := 7, vcsCommit := 0xBADC0DE, majorVersion := 1 }, true)
  uptimeSec := 60

def infoRequest : CanardRxTransfer where
  payload := []
  dataTypeId := GetNodeInfo.dataTypeId
  transferType := .request
  transferId := 0
  sourceNodeId := 5
  payload_lt := CanardRxTransfer.length_nil_lt

theorem getNodeInfo_round_trip_withApp : ∃ payload r,
    onTransferReception {} withApp infoRequest { localNodeId := 10 } () =
      .ok ({ localNodeId := 10 }, (), [{
        destinationNodeId := 5
        dataTypeId := 1
        transferId := 0
        priority := 0
        isRequest := false
        payload }]) ∧
      GetNodeInfo.Response.read payload = some r ∧ r.nodeStatus.uptimeSec = 60 ∧
      r.softwareVersion.vcsCommit = 0xBADC0DE := by
  obtain ⟨payload, r, hrec, -, hread, hstatus, hsw, -⟩ :
      ∃ payload r, onTransferReception {} withApp infoRequest { localNodeId := 10 } () =
        .ok (_, _, respond withApp infoRequest { localNodeId := 10 } 1 payload) ∧ _ :=
    getNodeInfo_round_trip rfl rfl
  refine ⟨payload, r, hrec, hread, ?_, ?_⟩
  · rw [hstatus]
    rfl
  · rw [hsw]
    rfl

end Node

end UavcanAdapter
