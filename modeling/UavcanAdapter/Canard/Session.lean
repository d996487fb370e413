/-
# `Canard.Session` — reception without memory

What the receiver does about one kind of transfer, if memory were no matter:
a session collects bytes, keeps the CRC, and is done when the last frame
comes and the CRC is right.  This is what the reception states of the library
are for, and the library does it as long as there is memory and no payload
has more than 1023 bytes (`Represents.handleFrame`).

All that is said about frames that are lost, repeated or out of order can be
said about sessions.
-/
import UavcanAdapter.Canard.Reception

namespace UavcanAdapter

open Base TransferCrc

/-- What has been received of one kind of transfer. -/
structure Session where
  timestampUsec : UInt64 := 0
  payloadCrc : UInt16 := 0
  calculatedCrc : UInt16 := 0
  bytes : List UInt8 := []
  transferId : BitVec 5 := 0
  nextToggle : Bool := false
deriving DecidableEq, Repr

/-- What comes to a session. -/
inductive SessionInput
  /-- a frame, and the signature with which the application accepts its transfer -/
  | frame (frame : CanardCANFrame) (timestampUsec : UInt64) (accepted : Option UInt64)
  | cleanup (currentTimeUsec : UInt64)

theorem restartNeeded_of_eq_zero {stateTimestampUsec timestampUsec : UInt64}
    {transferId : BitVec 5} {tailByte : UInt8} (h : stateTimestampUsec = 0) :
    restartNeeded stateTimestampUsec transferId tailByte timestampUsec = true :=
  decide_eq_true (Or.inl h)

namespace Session

/-- The session as it waits for the next transfer. -/
def waiting (s : Session) : Session :=
  { s with transferId := s.transferId + 1, bytes := [], nextToggle := false }

/-- A frame behind the restart: the session, and the payload of the transfer
that is complete. -/
def store (s : Session) (frame : CanardCANFrame) (tailByte : UInt8) (timestampUsec : UInt64) :
    Session × Option (List UInt8) :=
  let payload := frame.data.dropLast
  if isStartOfTransfer tailByte ∧ isEndOfTransfer tailByte then
    ({ s with timestampUsec }.waiting, some payload)
  else if toggleBit tailByte ≠ s.nextToggle then (s, none)
  else if (transferIdFromTailByte tailByte).toNat ≠ s.transferId.toNat then (s, none)
  else if isStartOfTransfer tailByte then
    if frame.data.length ≤ 3 then (s, none)
    else
      ({ s with
          timestampUsec
          payloadCrc := (frame.data.getD 0 0).toUInt16 ||| ((frame.data.getD 1 0).toUInt16 <<< 8)
          calculatedCrc := crcAdd s.calculatedCrc (payload.drop 2)
          bytes := s.bytes ++ payload.drop 2
          nextToggle := !s.nextToggle }, none)
  else
    let calculatedCrc := crcAdd s.calculatedCrc payload
    if ¬isEndOfTransfer tailByte then
      ({ s with calculatedCrc, bytes := s.bytes ++ payload, nextToggle := !s.nextToggle }, none)
    else
      ({ s with calculatedCrc }.waiting,
        if calculatedCrc = s.payloadCrc then some (s.bytes ++ payload) else none)

/-- The session begins again with the frame's transfer. -/
def restart (s : Session) (tailByte : UInt8) : Session :=
  { s with
    transferId := BitVec.ofNat 5 (transferIdFromTailByte tailByte).toNat
    bytes := []
    nextToggle := false }

/-- A frame. -/
def handle (s : Session) (frame : CanardCANFrame) (tailByte : UInt8) (timestampUsec : UInt64) :
    Session × Option (List UInt8) :=
  if restartNeeded s.timestampUsec s.transferId tailByte timestampUsec then
    if ¬isStartOfTransfer tailByte then
      ({ s.restart tailByte with transferId := (s.restart tailByte).transferId + 1 }, none)
    else (s.restart tailByte).store frame tailByte timestampUsec
  else s.store frame tailByte timestampUsec

/-- One input: a session that is stale begins from nothing. -/
def feed (s : Session) : SessionInput → Session × Option (List UInt8)
  | .frame frame timestampUsec accepted =>
      match frame.data.getLast? with
      | none => (s, none)
      | some tailByte =>
          if isStartOfTransfer tailByte then
            match accepted with
            | none => (s, none)
            | some dataTypeSignature =>
                { s with calculatedCrc := crcAddSignature 0xFFFF dataTypeSignature }.handle frame
                  tailByte timestampUsec
          else s.handle frame tailByte timestampUsec
  | .cleanup currentTimeUsec =>
      (if currentTimeUsec - s.timestampUsec > transferTimeoutUsec then {} else s, none)

/-- Input after input: the session, and the payloads. -/
def feedAll : Session → List SessionInput → Session × List (List UInt8)
  | s, [] => (s, [])
  | s, x :: xs =>
      let rest := feedAll (s.feed x).1 xs
      (rest.1, (s.feed x).2.toList ++ rest.2)

theorem feedAll_append (xs ys : List SessionInput) (s : Session) :
    s.feedAll (xs ++ ys) =
      (((s.feedAll xs).1.feedAll ys).1, (s.feedAll xs).2 ++ ((s.feedAll xs).1.feedAll ys).2) := by
  induction xs generalizing s with
  | nil => rfl
  | cons x xs ih =>
      rw [List.cons_append, feedAll, ih]
      simp only [feedAll, List.append_assoc]

end Session

/-! ## The states of the library do the same -/

/-- The payload of a transfer, in one piece. -/
def ScatteredRxTransfer.payload (transfer : ScatteredRxTransfer) : List UInt8 :=
  (transfer.payloadHead ++ CanardRxState.bytesOf transfer.payloadMiddle ++
    transfer.payloadTail).take transfer.payloadLen.toNat

/-- The state is at the same point as the session. -/
structure Represents (st : CanardRxState) (s : Session) : Prop where
  holds : st.Holds s.bytes
  timestamp : st.timestampUsec = s.timestampUsec
  payloadCrc : st.payloadCrc = s.payloadCrc
  calculatedCrc : st.calculatedCrc = s.calculatedCrc
  transferId : st.transferId = s.transferId
  nextToggle : st.nextToggle = s.nextToggle

/-- The result of a frame is that of the session: the transfer is over as soon
as the application returns. -/
def Agrees (x : CanardRxState × Option ScatteredRxTransfer) (y : Session × Option (List UInt8)) :
    Prop :=
  x.2.map ScatteredRxTransfer.payload = y.2 ∧
    if x.2.isSome then x.1.bufferBlocks = [] → Represents x.1.waiting y.1 else Represents x.1 y.1

section Refinement

open CanardRxState

variable {garbage : Garbage} {a a' : CanardPoolAllocator} {st st' : CanardRxState} {s : Session}
  {frame : CanardCANFrame} {tailByte : UInt8} {timestampUsec : UInt64} {others : List Nat}
  {payload bytes tail : List UInt8} {transfer : Option ScatteredRxTransfer}

theorem length_dropLast_le : frame.data.dropLast.length ≤ 7 := by
  have hlen := frame.data_len_le
  rw [List.length_dropLast]
  omega

/-- Behind what is held come the bytes of the last frame. -/
theorem CanardRxState.Holds.storeTail (h : st.Holds bytes) (hlt : bytes.length < 2 ^ 10)
    (hok : st.storeTail payload = .ok (st', tail)) :
    bytes ++ payload <+: st'.storage ++ tail := by
  rw [CanardRxState.storeTail, h.len] at hok
  split at hok
  · rename_i hroom
    obtain ⟨hnil, hbegins⟩ := h.of_lt hroom
    have hfill := prefix_fill_append payload hbegins rfl
    cases hok
    rw [storage, hnil, bytesOf, List.flatMap_nil, List.append_nil]
    exact hfill
  · rename_i hfull
    split at hok
    · rename_i hnone
      have hnil := List.getLast?_eq_none_iff.mp hnone
      have hbegins := h.isPrefix
      cases hok
      rw [storage, hnil, bytesOf, List.flatMap_nil, List.append_nil] at hbegins ⊢
      have hbytes := hbegins.eq_of_length (by
        have hle := hbegins.length_le
        rw [Vector.length_toList] at hle ⊢
        omega)
      rw [← hbytes]
    · rename_i last hlast
      obtain ⟨u, hassert, hok⟩ := Call.bind_eq_ok.mp hok
      have hblocks := List.dropLast_append_getLast? _ hlast
      have hcount : st.bufferBlocks.length = st.bufferBlocks.dropLast.length + 1 := by
        nth_rewrite 1 [← hblocks]
        exact List.length_append
      have hroom := h.room
      rw [length_storage] at hroom
      have hfront : (st.bufferHead.toList ++ bytesOf st.bufferBlocks.dropLast).length =
          canardMultiframeRxPayloadHeadSize +
            canardBufferBlockDataSize * (st.bufferBlocks.length - 1) := by
        rw [List.length_append, Vector.length_toList, length_bytesOf, List.length_dropLast]
      have hoffset : canardMultiframeRxPayloadHeadSize +
          canardBufferBlockDataSize * (st.bufferBlocks.length - 1) ≤ bytes.length := by
        simp only [canardMultiframeRxPayloadHeadSize, canardBufferBlockDataSize,
          canardMemBlockSize, offsetOfData, offsetOfBufferHead] at hroom ⊢
        omega
      have hin := ((ofNat_sub_lt_iff (by omega) (by omega) (by decide)).mp
        (Call.assert_eq_ok.mp hassert)).2
      rw [toNat_ofNat_sub hoffset (by omega)] at hok
      have hstorage : st.storage =
          st.bufferHead.toList ++ bytesOf st.bufferBlocks.dropLast ++ last.data.toList := by
        rw [storage, ← bytesOf_singleton, List.append_assoc, ← bytesOf_append, hblocks]
      have hbegins := h.isPrefix
      rw [hstorage] at hbegins
      -- the bytes end in the last block
      have htake := List.prefix_iff_eq_take.mp hbegins
      rw [List.take_append, List.take_of_length_le (by omega), hfront] at htake
      have hcur : (last.data.toList.take (bytes.length - (canardMultiframeRxPayloadHeadSize +
          canardBufferBlockDataSize * (st.bufferBlocks.length - 1)))).length = bytes.length -
          (canardMultiframeRxPayloadHeadSize +
            canardBufferBlockDataSize * (st.bufferBlocks.length - 1)) := by
        rw [List.length_take, Vector.length_toList]
        omega
      have hfill := prefix_fill_append payload (List.take_prefix _ _) hcur
      cases hok
      rw [storage, bytesOf_append, bytesOf_singleton]
      nth_rewrite 1 [htake]
      simp only [List.append_assoc, List.prefix_append_right_inj] at hfill ⊢
      exact hfill

theorem CanardRxState.Holds.storeTail_eq (h : st.Holds bytes) (hlt : bytes.length < 2 ^ 10)
    (hok : st.storeTail payload = .ok (st', tail)) :
    st' = { st with bufferHead := st'.bufferHead, bufferBlocks := st'.bufferBlocks } := by
  have hcount : st.bufferBlocks.length < 2 ^ 16 := by
    have hroom := h.room
    rw [length_storage] at hroom
    simp only [canardMultiframeRxPayloadHeadSize, canardBufferBlockDataSize, canardMemBlockSize,
      offsetOfData, offsetOfBufferHead] at hroom
    omega
  rcases storeTail_spec payload hcount with
    ⟨-, herror⟩ | ⟨-, st₁, tail₁, hrun, hst₁, -⟩
  · rw [hok] at herror
    cases herror
  · rw [hok] at hrun
    cases hrun
    exact hst₁

/-- A single frame is its own payload. -/
theorem payload_single : (frame.transferOf tailByte timestampUsec frame.data [] []
    (UInt8.ofNat frame.data.dropLast.length).toUInt16).payload = frame.data.dropLast := by
  have hseven : frame.data.dropLast.length ≤ 7 := length_dropLast_le
  have hlen : (UInt8.ofNat frame.data.dropLast.length).toUInt16.toNat =
      frame.data.length - 1 := by
    rw [UInt8.toNat_toUInt16, UInt8.toNat_ofNat_of_lt' (show _ < 2 ^ 8 by omega),
      List.length_dropLast]
  rw [ScatteredRxTransfer.payload, CanardCANFrame.transferOf, bytesOf, List.flatMap_nil,
    List.append_nil, List.append_nil, hlen, List.dropLast_eq_take]

/-- The bytes of a frame are taken. -/
theorem Represents.push (h : Represents st s) (hmem : a.freeList ≠ [] ∨ s.bytes = [] ∧
      payload.length ≤ canardMultiframeRxPayloadHeadSize)
    (hlen : payload.length ≤ 7) (hroom : s.bytes.length + 7 < 2 ^ 10)
    {next : CanardRxState → CanardRxState}
    (hok : pushFrame garbage a st payload next = .ok (a', st', transfer)) :
    transfer = none ∧ ∃ st₁, Represents st₁ { s with bytes := s.bytes ++ payload } ∧
      st' = { next st₁ with nextToggle := !st₁.nextToggle } := by
  obtain ⟨a₁, st₁, result, new, hrun, hst₁, -, -, -, hone⟩ :=
    bufferBlockPushBytes_spec garbage a st payload
  have hsmall : payload.length < canardBufferBlockDataSize := Nat.lt_of_le_of_lt hlen (by decide)
  have hresult : result = 1 := by
    rcases hmem with hfree | ⟨hnil, hfits⟩
    · exact hone hfree hsmall.le
    · have hzero : st.payloadLen = 0 := by
        rw [← BitVec.toNat_inj, h.holds.len, hnil]
        rfl
      obtain ⟨st₂, hrun₂⟩ := bufferBlockPushBytes_of_fits garbage a hzero hfits
      rw [hrun] at hrun₂
      cases hrun₂
      rfl
  subst hresult
  rw [pushFrame, hrun, Call.ok_bind] at hok
  dsimp only at hok
  rw [if_neg (by decide)] at hok
  cases Call.pure_eq_ok.mp hok
  refine ⟨rfl, st₁, ⟨h.holds.push hsmall (by omega) hrun, ?_, ?_, ?_, ?_, ?_⟩, rfl⟩
  · rw [hst₁]; exact h.timestamp
  · rw [hst₁]; exact h.payloadCrc
  · rw [hst₁]; exact h.calculatedCrc
  · rw [hst₁]; exact h.transferId
  · rw [hst₁]; exact h.nextToggle

/-- Behind the restart, a state does what its session does. -/
theorem Represents.storeFrame (h : Represents st s) (hmem : a.freeList ≠ [] ∨ s.bytes = [])
    (hstart : a.freeList = [] → isStartOfTransfer tailByte = true)
    (hroom : s.bytes.length + 7 < 2 ^ 10)
    (hok : st.storeFrame garbage a frame tailByte timestampUsec = .ok (a', st', transfer)) :
    Agrees (st', transfer) (s.store frame tailByte timestampUsec) := by
  have hseven : frame.data.dropLast.length ≤ 7 := length_dropLast_le
  rw [CanardRxState.storeFrame] at hok
  rw [Session.store]
  by_cases hsingle : isStartOfTransfer tailByte ∧ isEndOfTransfer tailByte
  · rw [if_pos hsingle] at hok ⊢
    cases hok
    refine ⟨congrArg some payload_single, fun hnil => ?_⟩
    exact ⟨holds_nil rfl hnil, rfl, h.payloadCrc, h.calculatedCrc,
      congrArg (· + 1) h.transferId, rfl⟩
  rw [if_neg hsingle] at hok ⊢
  by_cases htoggle : toggleBit tailByte ≠ s.nextToggle
  · rw [if_pos (h.nextToggle ▸ htoggle)] at hok
    rw [if_pos htoggle]
    cases hok
    exact ⟨rfl, h⟩
  rw [if_neg (h.nextToggle ▸ htoggle)] at hok
  rw [if_neg htoggle]
  by_cases htid : (transferIdFromTailByte tailByte).toNat ≠ s.transferId.toNat
  · rw [if_pos (h.transferId ▸ htid)] at hok
    rw [if_pos htid]
    cases hok
    exact ⟨rfl, h⟩
  rw [if_neg (h.transferId ▸ htid)] at hok
  rw [if_neg htid]
  by_cases hfirst : isStartOfTransfer tailByte = true
  · rw [if_pos hfirst] at hok ⊢
    by_cases hshort : frame.data.length ≤ 3
    · rw [if_pos hshort] at hok ⊢
      cases hok
      exact ⟨rfl, h⟩
    · rw [if_neg hshort] at hok ⊢
      have hfive : (frame.data.dropLast.drop 2).length ≤ canardMultiframeRxPayloadHeadSize := by
        rw [List.length_drop]
        exact Nat.le_trans (Nat.sub_le_sub_right hseven 2) (by decide)
      have hst : Represents { st with timestampUsec } { s with timestampUsec } :=
        ⟨⟨h.holds.len, h.holds.isPrefix, h.holds.room⟩, rfl, h.payloadCrc, h.calculatedCrc,
          h.transferId, h.nextToggle⟩
      obtain ⟨rfl, st₁, hst₁, rfl⟩ := hst.push (hmem.imp_right fun hnil => ⟨hnil, hfive⟩)
        (hfive.trans (by decide)) hroom hok
      exact ⟨rfl, ⟨hst₁.holds.len, hst₁.holds.isPrefix, hst₁.holds.room⟩, hst₁.timestamp, rfl,
        congrArg (crcAdd · _) hst₁.calculatedCrc, hst₁.transferId, congrArg not hst₁.nextToggle⟩
  rw [if_neg hfirst] at hok ⊢
  have hfree : a.freeList ≠ [] := fun hnil => hfirst (hstart hnil)
  dsimp only
  by_cases hend : isEndOfTransfer tailByte = true
  · rw [if_neg (not_not.mpr hend)] at hok ⊢
    obtain ⟨⟨st₁, tail⟩, htail, hok⟩ := Call.bind_eq_ok.mp hok
    have hbegins := h.holds.storeTail (by omega) htail
    have hst₁ := h.holds.storeTail_eq (by omega) htail
    have hlen : st₁.payloadLen.toNat = s.bytes.length := by
      rw [hst₁]
      exact h.holds.len
    have hcrc : st₁.calculatedCrc = s.calculatedCrc := by
      rw [hst₁]
      exact h.calculatedCrc
    have hcarried : st₁.payloadCrc = s.payloadCrc := by
      rw [hst₁]
      exact h.payloadCrc
    have hwaiting : Represents { st₁ with
        bufferBlocks := []
        payloadCrc := s.payloadCrc
        calculatedCrc := crcAdd s.calculatedCrc frame.data.dropLast }.waiting
        { s with calculatedCrc := crcAdd s.calculatedCrc frame.data.dropLast }.waiting := by
      rw [hst₁]
      exact ⟨holds_nil rfl rfl, h.timestamp, rfl, rfl, congrArg (· + 1) h.transferId, rfl⟩
    dsimp only at hok
    rw [hcrc, hcarried] at hok
    by_cases hright : crcAdd s.calculatedCrc frame.data.dropLast = s.payloadCrc
    · rw [if_pos hright] at hok
      rw [if_pos hright]
      cases Call.pure_eq_ok.mp hok
      refine ⟨congrArg some ?_, fun _ => hwaiting⟩
      have hsize : (UInt16.ofNat (st₁.payloadLen.toNat + frame.data.dropLast.length)).toNat =
          (s.bytes ++ frame.data.dropLast).length := by
        rw [hlen, List.length_append]
        exact UInt16.toNat_ofNat_of_lt' (show _ < 2 ^ 16 by omega)
      rw [ScatteredRxTransfer.payload, CanardCANFrame.transferOf, hsize]
      exact (List.prefix_iff_eq_take.mp hbegins).symm
    · rw [if_neg hright] at hok
      rw [if_neg hright]
      obtain ⟨a₂, -, hok⟩ := Call.bind_eq_ok.mp hok
      rw [prepareForNextTransfer_of_nil rfl, Call.ok_bind] at hok
      cases Call.pure_eq_ok.mp hok
      exact ⟨rfl, hwaiting⟩
  · rw [if_pos hend] at hok ⊢
    obtain ⟨rfl, st₁, hst₁, rfl⟩ := h.push (Or.inl hfree) hseven hroom hok
    exact ⟨rfl, ⟨hst₁.holds.len, hst₁.holds.isPrefix, hst₁.holds.room⟩, hst₁.timestamp,
      hst₁.payloadCrc, congrArg (crcAdd · _) hst₁.calculatedCrc, hst₁.transferId,
      congrArg not hst₁.nextToggle⟩

/-- After a restart nothing counts of what a state has received. -/
theorem agrees_of_restart (hacc : a.Accounts (st.owned ++ others))
    (htimestamp : st.timestampUsec = s.timestampUsec) (hcarried : st.payloadCrc = s.payloadCrc)
    (hcrc : st.calculatedCrc = s.calculatedCrc)
    (hrestart : st.needRestart tailByte timestampUsec = true)
    (hrestart' : restartNeeded s.timestampUsec s.transferId tailByte timestampUsec = true)
    (hok : st.handleFrame garbage a frame tailByte timestampUsec = .ok (a', st', transfer)) :
    Agrees (st', transfer) (s.handle frame tailByte timestampUsec) := by
  have hbefore : a.Accounts (({ st with
      transferId := BitVec.ofNat 5 (transferIdFromTailByte tailByte).toNat
      nextToggle := false }).owned ++ others) := hacc
  obtain ⟨a₁, hrelease, -, -⟩ := releaseStatePayload_spec hbefore
  rw [CanardRxState.handleFrame, if_pos hrestart] at hok
  rw [Session.handle, if_pos hrestart']
  dsimp only at hok
  rw [hrelease, Call.ok_bind] at hok
  dsimp only at hok
  by_cases hstart : isStartOfTransfer tailByte = true
  · rw [if_neg (not_not.mpr hstart)] at hok ⊢
    have hst : Represents { st with
        bufferBlocks := []
        payloadLen := 0
        transferId := BitVec.ofNat 5 (transferIdFromTailByte tailByte).toNat
        nextToggle := false } (s.restart tailByte) :=
      ⟨holds_nil rfl rfl, htimestamp, hcarried, hcrc, rfl, rfl⟩
    exact hst.storeFrame (Or.inr rfl) (fun _ => hstart) (show 0 + 7 < 2 ^ 10 by decide) hok
  · rw [if_pos hstart] at hok ⊢
    cases Call.pure_eq_ok.mp hok
    exact ⟨rfl, holds_nil rfl rfl, htimestamp, hcarried, hcrc, rfl, rfl⟩

/-- A state does what its session does, if there is memory and room. -/
theorem Represents.handleFrame (h : Represents st s) (hacc : a.Accounts (st.owned ++ others))
    (hfree : a.freeList ≠ []) (hroom : s.bytes.length + 7 < 2 ^ 10)
    (hok : st.handleFrame garbage a frame tailByte timestampUsec = .ok (a', st', transfer)) :
    Agrees (st', transfer) (s.handle frame tailByte timestampUsec) := by
  have hsame : st.needRestart tailByte timestampUsec =
      restartNeeded s.timestampUsec s.transferId tailByte timestampUsec := by
    rw [needRestart, h.timestamp, h.transferId]
  by_cases hrestart : st.needRestart tailByte timestampUsec = true
  · exact agrees_of_restart hacc h.timestamp h.payloadCrc h.calculatedCrc hrestart
      (hsame ▸ hrestart) hok
  · rw [CanardRxState.handleFrame, if_neg hrestart] at hok
    rw [Session.handle, if_neg (hsame ▸ hrestart)]
    exact h.storeFrame (Or.inl hfree) (fun hnil => absurd hnil hfree) hroom hok

end Refinement

end UavcanAdapter
