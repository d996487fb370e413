/-
# `Canard.Reception` — how a transfer is put together

Every frame of a transfer is looked at with the state that its data type, its
kind and its two nodes select.  The frame may begin a transfer, go on with it
or end it, or it is ignored; and a transfer that has ended is handed to the
application, with its payload scattered over the state, the blocks and the
last frame.

`handleFrame` is `canardHandleRxFrame` from there on where it has found a
state, up to where it calls `on_reception`.  What comes behind that call is
`finishReception`, so that the application can do something in between.
-/
import UavcanAdapter.Canard.CanId
import UavcanAdapter.Canard.RxState
import UavcanAdapter.Canard.TransferCrc

namespace UavcanAdapter

open Base TransferCrc

/-- `CanardRxTransfer` as the application gets it.  `payloadTail` is empty
where the library says `NULL`. -/
structure ScatteredRxTransfer where
  timestampUsec : UInt64
  payloadHead : List UInt8
  payloadMiddle : List CanardBufferBlock := []
  payloadTail : List UInt8 := []
  payloadLen : UInt16
  dataTypeId : UInt16
  transferType : CanardTransferType
  transferId : UInt8
  priority : UInt8
  sourceNodeId : UInt8

namespace CanardCANFrame

/-- A transfer that ends with this frame. -/
def transferOf (frame : CanardCANFrame) (tailByte : UInt8) (timestampUsec : UInt64)
    (payloadHead : List UInt8) (payloadMiddle : List CanardBufferBlock) (payloadTail : List UInt8)
    (payloadLen : UInt16) : ScatteredRxTransfer where
  timestampUsec
  payloadHead
  payloadMiddle
  payloadTail
  payloadLen
  dataTypeId := extractDataType frame.id
  transferType := extractTransferType frame.id
  transferId := transferIdFromTailByte tailByte
  priority := priorityFromId frame.id
  sourceNodeId := sourceIdFromId frame.id

end CanardCANFrame

/-- `computeTransferIDForwardDistance`. -/
def computeTransferIDForwardDistance (a b : UInt8) : Int :=
  let d : Int := (b.toNat : Int) - a.toNat
  if d < 0 then d + 2 ^ 5 else d

/-- `not_initialized || tid_timed_out || (first_frame && not_previous_tid)`. -/
def restartNeeded (stateTimestampUsec : UInt64) (transferId : BitVec 5) (tailByte : UInt8)
    (timestampUsec : UInt64) : Bool :=
  decide (stateTimestampUsec = 0 ∨ timestampUsec - stateTimestampUsec > transferTimeoutUsec ∨
    isStartOfTransfer tailByte ∧ computeTransferIDForwardDistance
      (UInt8.ofNat transferId.toNat) (transferIdFromTailByte tailByte) > 1)

namespace CanardRxState

/-- `need_restart`. -/
def needRestart (st : CanardRxState) (tailByte : UInt8) (timestampUsec : UInt64) : Bool :=
  restartNeeded st.timestampUsec st.transferId tailByte timestampUsec

/-- The beginning of the last frame goes to the end of what is stored.  What
there is no room for is the tail. -/
def storeTail (st : CanardRxState) (payload : List UInt8) : Call (CanardRxState × List UInt8) :=
  if st.payloadLen.toNat < canardMultiframeRxPayloadHeadSize then
    let (bufferHead, tail) := fill st.bufferHead st.payloadLen.toNat payload
    .ok ({ st with bufferHead }, tail)
  else
    match st.bufferBlocks.getLast? with
    | none => .ok (st, payload)
    | some last => do
        let offset := canardMultiframeRxPayloadHeadSize +
          canardBufferBlockDataSize * (st.bufferBlocks.length - 1)
        let offsetWithinBlock := UInt32.ofNat st.payloadLen.toNat - UInt32.ofNat offset
        Call.assert (offsetWithinBlock < UInt32.ofNat canardBufferBlockDataSize)
        let (data, tail) := fill last.data offsetWithinBlock.toNat payload
        return ({ st with bufferBlocks := st.bufferBlocks.dropLast ++ [{ last with data }] }, tail)

/-- What happens where no memory is left. -/
def giveUp (a : CanardPoolAllocator) (st : CanardRxState) :
    Call (CanardPoolAllocator × CanardRxState × Option ScatteredRxTransfer) := do
  let (a, st) ← releaseStatePayload a st
  let st ← prepareForNextTransfer st
  return (a, st, none)

/-- The bytes of a frame are taken, and `next` is what becomes of the state. -/
def pushFrame (garbage : Garbage) (a : CanardPoolAllocator) (st : CanardRxState)
    (bytes : List UInt8) (next : CanardRxState → CanardRxState) :
    Call (CanardPoolAllocator × CanardRxState × Option ScatteredRxTransfer) := do
  let (a, st, ret) ← bufferBlockPushBytes garbage a st bytes
  if ret < 0 then giveUp a st
  else return (a, { next st with nextToggle := !st.nextToggle }, none)

/-- `canardHandleRxFrame`, behind the restart. -/
def storeFrame (garbage : Garbage) (a : CanardPoolAllocator) (st : CanardRxState)
    (frame : CanardCANFrame) (tailByte : UInt8) (timestampUsec : UInt64) :
    Call (CanardPoolAllocator × CanardRxState × Option ScatteredRxTransfer) :=
  let payload := frame.data.dropLast
  if isStartOfTransfer tailByte ∧ isEndOfTransfer tailByte then
    .ok (a, { st with timestampUsec }, some (frame.transferOf tailByte timestampUsec frame.data
      [] [] (UInt8.ofNat payload.length).toUInt16))
  else if toggleBit tailByte ≠ st.nextToggle then .ok (a, st, none)
  else if (transferIdFromTailByte tailByte).toNat ≠ st.transferId.toNat then .ok (a, st, none)
  else if isStartOfTransfer tailByte then
    if frame.data.length ≤ 3 then .ok (a, st, none)
    else
      -- the CRC is taken off
      let bytes := payload.drop 2
      pushFrame garbage a { st with timestampUsec } bytes fun st =>
        { st with
          payloadCrc := (frame.data.getD 0 0).toUInt16 ||| ((frame.data.getD 1 0).toUInt16 <<< 8)
          calculatedCrc := crcAdd st.calculatedCrc bytes }
  else if ¬isEndOfTransfer tailByte then
    pushFrame garbage a st payload fun st =>
      { st with calculatedCrc := crcAdd st.calculatedCrc payload }
  else do
    let (st, tail) ← st.storeTail payload
    let transfer := frame.transferOf tailByte timestampUsec st.bufferHead.toList st.bufferBlocks
      tail (UInt16.ofNat (st.payloadLen.toNat + payload.length))
    -- the blocks belong to the transfer now
    let st := { st with bufferBlocks := [], calculatedCrc := crcAdd st.calculatedCrc payload }
    if st.calculatedCrc = st.payloadCrc then return (a, st, some transfer)
    else
      let a ← a.freeBlocks (transfer.payloadMiddle.map CanardBufferBlock.block)
      let st ← prepareForNextTransfer st
      return (a, st, none)

/-- `canardHandleRxFrame`, behind the lookup of the state. -/
def handleFrame (garbage : Garbage) (a : CanardPoolAllocator) (st : CanardRxState)
    (frame : CanardCANFrame) (tailByte : UInt8) (timestampUsec : UInt64) :
    Call (CanardPoolAllocator × CanardRxState × Option ScatteredRxTransfer) :=
  if st.needRestart tailByte timestampUsec then do
    let transferId := BitVec.ofNat 5 (transferIdFromTailByte tailByte).toNat
    let (a, st) ← releaseStatePayload a { st with transferId, nextToggle := false }
    -- the first frame was missed
    if ¬isStartOfTransfer tailByte then
      return (a, { st with transferId := st.transferId + 1 }, none)
    else st.storeFrame garbage a frame tailByte timestampUsec
  else st.storeFrame garbage a frame tailByte timestampUsec

end CanardRxState

/-! ## What a frame does to a state -/

section HandleFrame

open CanardPoolAllocator

variable {garbage : Garbage} {a a' : CanardPoolAllocator} {st st' : CanardRxState}
  {frame : CanardCANFrame} {tailByte : UInt8} {timestampUsec : UInt64} {others : List Nat}
  {payload bytes : List UInt8}

/-- The blocks a transfer takes along. -/
def ScatteredRxTransfer.owned (transfer : ScatteredRxTransfer) : List Nat :=
  transfer.payloadMiddle.map CanardBufferBlock.block

/-- The blocks of a transfer that may not be there. -/
def ownedBy (transfer : Option ScatteredRxTransfer) : List Nat :=
  transfer.elim [] ScatteredRxTransfer.owned

namespace CanardRxState

/-- The number of bytes does not fit the number of blocks. -/
def Misfit (st : CanardRxState) : Prop :=
  canardMultiframeRxPayloadHeadSize ≤ st.payloadLen.toNat ∧ st.bufferBlocks ≠ [] ∧
    ¬(canardMultiframeRxPayloadHeadSize +
        canardBufferBlockDataSize * (st.bufferBlocks.length - 1) ≤ st.payloadLen.toNat ∧
      st.payloadLen.toNat < canardMultiframeRxPayloadHeadSize +
        canardBufferBlockDataSize * st.bufferBlocks.length)

/-- The state takes the frame as the last one of its transfer. -/
def TakesAsLast (st : CanardRxState) (tailByte : UInt8) : Prop :=
  isStartOfTransfer tailByte = false ∧ isEndOfTransfer tailByte = true ∧
    toggleBit tailByte = st.nextToggle ∧
    (transferIdFromTailByte tailByte).toNat = st.transferId.toNat

/-- The states have the same place and the same key. -/
def SameSlot (st st' : CanardRxState) : Prop :=
  st'.block = st.block ∧ st'.dtidTtSnidDnid = st.dtidTtSnidDnid

/-- A call leaves the state in its place, and every block that belonged to it
belongs to it, to the transfer or to nobody. -/
def Keeps (st : CanardRxState) (others : List Nat)
    (x : Call (CanardPoolAllocator × CanardRxState × Option ScatteredRxTransfer)) : Prop :=
  ∃ a' st' transfer, x = .ok (a', st', transfer) ∧ st.SameSlot st' ∧
    a'.Accounts (st'.owned ++ (ownedBy transfer ++ others))

theorem SameSlot.refl : st.SameSlot st := ⟨rfl, rfl⟩

theorem SameSlot.trans {st'' : CanardRxState} (h : st.SameSlot st') (h' : st'.SameSlot st'') :
    st.SameSlot st'' := ⟨h'.1.trans h.1, h'.2.trans h.2⟩

theorem prepareForNextTransfer_of_nil (hnil : st.bufferBlocks = []) :
    st.prepareForNextTransfer = .ok st.waiting := by
  rw [prepareForNextTransfer, Call.assert_of_true (by rw [hnil]; rfl)]
  rfl

theorem prepareForNextTransfer_of_ne_nil (hne : st.bufferBlocks ≠ []) :
    st.prepareForNextTransfer = .error .assertion := by
  rw [prepareForNextTransfer, Call.assert_of_false (by rwa [List.isEmpty_iff])]
  rfl

theorem keeps_giveUp (h : a.Accounts (st.owned ++ others)) : st.Keeps others (giveUp a st) := by
  obtain ⟨a', ha', hacc, -⟩ := releaseStatePayload_spec h
  refine ⟨a', _, none, Call.bind_eq_ok.mpr ⟨_, ha', Call.bind_eq_ok.mpr ⟨_,
    prepareForNextTransfer_of_nil rfl, rfl⟩⟩, ⟨rfl, rfl⟩, hacc⟩

/-- Whether or not there is memory, no block is lost. -/
theorem keeps_pushFrame {next : CanardRxState → CanardRxState}
    (hnext : ∀ st, st.SameSlot (next st) ∧ (next st).payloadBlocks = st.payloadBlocks)
    (h : a.Accounts (st.owned ++ others)) :
    st.Keeps others (pushFrame garbage a st bytes next) := by
  obtain ⟨a', st', result, new, hrun, hst', hblocks, htakes, hresult, -⟩ :=
    bufferBlockPushBytes_spec garbage a st bytes
  have hslot : st.SameSlot st' := by
    rw [hst']
    exact ⟨rfl, rfl⟩
  have hacc : a'.Accounts (st'.owned ++ others) := by
    refine (htakes _ h).of_perm ?_
    rw [owned, owned, hblocks, hslot.1]
    rw [List.perm_iff_count]
    intro x
    simp only [List.count_append, List.count_cons, List.cons_append]
    omega
  rw [pushFrame, hrun, Call.ok_bind]
  rcases hresult with rfl | rfl
  · obtain ⟨hslot', hblocks'⟩ := hnext st'
    refine ⟨a', _, none, if_neg (by decide), hslot.trans hslot', ?_⟩
    rw [owned] at hacc ⊢
    rw [← hblocks', ← hslot'.1] at hacc
    exact hacc
  · dsimp only
    rw [if_pos (by decide)]
    obtain ⟨a'', st'', transfer, hgive, hslot', hacc'⟩ := keeps_giveUp hacc
    exact ⟨a'', st'', transfer, hgive, hslot.trans hslot', hacc'⟩

/-- A difference that wraps around is not small. -/
theorem ofNat_sub_lt_iff {x o n : Nat} (hx : x < 2 ^ 31) (ho : o < 2 ^ 31) (hn : n ≤ 2 ^ 31) :
    UInt32.ofNat x - UInt32.ofNat o < UInt32.ofNat n ↔ o ≤ x ∧ x < o + n := by
  rw [UInt32.lt_iff_toNat_lt, UInt32.toNat_sub, UInt32.toNat_ofNat', UInt32.toNat_ofNat',
    UInt32.toNat_ofNat']
  omega

/-- The last frame finds its place unless the state does not fit. -/
theorem storeTail_spec (payload : List UInt8) (hcount : st.bufferBlocks.length < 2 ^ 16) :
    (st.Misfit ∧ st.storeTail payload = .error .assertion) ∨
    (¬st.Misfit ∧ ∃ st' tail, st.storeTail payload = .ok (st', tail) ∧
      st' = { st with bufferHead := st'.bufferHead, bufferBlocks := st'.bufferBlocks } ∧
      st'.payloadBlocks = st.payloadBlocks) := by
  rw [storeTail]
  split
  · rename_i hroom
    exact Or.inr ⟨fun h => absurd h.1 (Nat.not_le.mpr hroom), _, _, rfl, rfl, rfl⟩
  · rename_i hfull
    split
    · rename_i hnone
      exact Or.inr ⟨fun h => h.2.1 (List.getLast?_eq_none_iff.mp hnone), _, _, rfl, rfl, rfl⟩
    · rename_i last hlast
      have hblocks := List.dropLast_append_getLast? _ hlast
      have hne : st.bufferBlocks ≠ [] := by
        rintro hnil
        rw [hnil] at hlast
        cases hlast
      have hlen : st.payloadLen.toNat < 2 ^ 10 := st.payloadLen.isLt
      have hpos : 0 < st.bufferBlocks.length := List.length_pos_iff.mpr hne
      have hoffset : canardMultiframeRxPayloadHeadSize +
          canardBufferBlockDataSize * st.bufferBlocks.length =
          canardMultiframeRxPayloadHeadSize +
            canardBufferBlockDataSize * (st.bufferBlocks.length - 1) +
          canardBufferBlockDataSize := by
        rw [Nat.add_assoc, ← Nat.mul_succ, Nat.succ_eq_add_one, Nat.sub_add_cancel hpos]
      have hsmall : canardMultiframeRxPayloadHeadSize +
          canardBufferBlockDataSize * (st.bufferBlocks.length - 1) < 2 ^ 31 := by
        simp only [canardMultiframeRxPayloadHeadSize, canardBufferBlockDataSize,
          canardMemBlockSize, offsetOfData, offsetOfBufferHead]
        omega
      have hfits := ofNat_sub_lt_iff (x := st.payloadLen.toNat)
        (n := canardBufferBlockDataSize) (by omega) hsmall (by decide)
      have hmisfit_iff : st.Misfit ↔ ¬(canardMultiframeRxPayloadHeadSize +
          canardBufferBlockDataSize * (st.bufferBlocks.length - 1) ≤ st.payloadLen.toNat ∧
          st.payloadLen.toNat < canardMultiframeRxPayloadHeadSize +
            canardBufferBlockDataSize * (st.bufferBlocks.length - 1) +
          canardBufferBlockDataSize) := by
        rw [← hoffset]
        exact ⟨fun h => h.2.2, fun h => ⟨not_lt.mp hfull, hne, h⟩⟩
      by_cases hmisfit : st.Misfit
      · refine Or.inl ⟨hmisfit, ?_⟩
        dsimp only
        rw [Call.assert_of_false fun hlt => hmisfit_iff.mp hmisfit (hfits.mp hlt)]
        rfl
      · refine Or.inr ⟨hmisfit, ?_⟩
        dsimp only
        rw [Call.assert_of_true (hfits.mpr (not_not.mp fun h => hmisfit (hmisfit_iff.mpr h)))]
        refine ⟨_, _, rfl, rfl, ?_⟩
        have hmap := congrArg (List.map CanardBufferBlock.block) hblocks
        rw [List.map_append] at hmap
        rw [payloadBlocks, payloadBlocks, List.map_append]
        exact hmap

/-- Behind the restart a call fails iff the last frame meets a misfit. -/
theorem storeFrame_spec (garbage : Garbage) (frame : CanardCANFrame) (tailByte : UInt8)
    (timestampUsec : UInt64) (h : a.Accounts (st.owned ++ others)) :
    (st.TakesAsLast tailByte ∧ st.Misfit ∧
      st.storeFrame garbage a frame tailByte timestampUsec = .error .assertion) ∨
    (¬(st.TakesAsLast tailByte ∧ st.Misfit) ∧
      st.Keeps others (st.storeFrame garbage a frame tailByte timestampUsec)) := by
  have hsame : ∀ (st' : CanardRxState) (transfer : Option ScatteredRxTransfer), st.SameSlot st' →
      st'.payloadBlocks = st.payloadBlocks → ownedBy transfer = [] →
      st.Keeps others (.ok (a, st', transfer)) := by
    intro st' transfer hslot hblocks hnone
    refine ⟨a, st', transfer, rfl, hslot, ?_⟩
    rw [hnone, owned, hblocks, hslot.1]
    exact h
  rw [storeFrame]
  by_cases hsingle : isStartOfTransfer tailByte ∧ isEndOfTransfer tailByte
  · rw [if_pos hsingle]
    exact Or.inr ⟨fun hlast => by simp [hlast.1.1] at hsingle, hsame _ _ ⟨rfl, rfl⟩ rfl rfl⟩
  rw [if_neg hsingle]
  by_cases htoggle : toggleBit tailByte ≠ st.nextToggle
  · rw [if_pos htoggle]
    exact Or.inr ⟨fun hlast => htoggle hlast.1.2.2.1, hsame _ _ .refl rfl rfl⟩
  rw [if_neg htoggle]
  by_cases htid : (transferIdFromTailByte tailByte).toNat ≠ st.transferId.toNat
  · rw [if_pos htid]
    exact Or.inr ⟨fun hlast => htid hlast.1.2.2.2, hsame _ _ .refl rfl rfl⟩
  rw [if_neg htid]
  by_cases hstart : isStartOfTransfer tailByte = true
  · have hnot : ¬(st.TakesAsLast tailByte ∧ st.Misfit) := fun hlast => by
      simp [hlast.1.1] at hstart
    rw [if_pos hstart]
    split
    · exact Or.inr ⟨hnot, hsame _ _ .refl rfl rfl⟩
    · refine Or.inr ⟨hnot, ?_⟩
      have hstamped : a.Accounts (({ st with timestampUsec }).owned ++ others) := h
      exact keeps_pushFrame (fun _ => ⟨⟨rfl, rfl⟩, rfl⟩) hstamped
  rw [if_neg hstart]
  by_cases hend : isEndOfTransfer tailByte = true
  · rw [if_neg (not_not.mpr hend)]
    have hlast : st.TakesAsLast tailByte :=
      ⟨Bool.eq_false_iff.mpr hstart, hend, not_not.mp htoggle, not_not.mp htid⟩
    have hcount : st.bufferBlocks.length < 2 ^ 16 := by
      have hlen := h.length
      have hcap := h.capacity
      rw [List.length_append, owned, List.length_cons, payloadBlocks, List.length_map] at hlen
      omega
    rcases storeTail_spec frame.data.dropLast hcount with
      ⟨hmisfit, hrun⟩ | ⟨hfit, st', tail, hrun, hst', hblocks⟩
    · refine Or.inl ⟨hlast, hmisfit, ?_⟩
      rw [hrun]
      rfl
    · refine Or.inr ⟨fun hcon => hfit hcon.2, ?_⟩
      rw [hrun, Call.ok_bind]
      have hslot : st.SameSlot st' := by
        rw [hst']
        exact ⟨rfl, rfl⟩
      have hacc : a.Accounts (st'.payloadBlocks ++ (st'.block :: others)) := by
        rw [hblocks, hslot.1]
        exact h.of_perm List.perm_middle.symm
      dsimp only
      split
      · exact ⟨a, _, _, rfl, hslot, hacc.of_perm List.perm_middle⟩
      · obtain ⟨a', ha', hacc', -⟩ := hacc.frees
        exact ⟨a', _, none, Call.bind_eq_ok.mpr ⟨_, ha', Call.bind_eq_ok.mpr
          ⟨_, prepareForNextTransfer_of_nil rfl, rfl⟩⟩, hslot, hacc'⟩
  · rw [if_pos hend]
    exact Or.inr ⟨fun hlast => hend hlast.1.2.1,
      keeps_pushFrame (fun _ => ⟨⟨rfl, rfl⟩, rfl⟩) h⟩

/-- A call fails iff there is no restart and the last frame meets a misfit. -/
theorem handleFrame_spec (garbage : Garbage) (frame : CanardCANFrame) (tailByte : UInt8)
    (timestampUsec : UInt64) (h : a.Accounts (st.owned ++ others)) :
    (st.needRestart tailByte timestampUsec = false ∧ st.TakesAsLast tailByte ∧ st.Misfit ∧
      st.handleFrame garbage a frame tailByte timestampUsec = .error .assertion) ∨
    (¬(st.needRestart tailByte timestampUsec = false ∧ st.TakesAsLast tailByte ∧ st.Misfit) ∧
      st.Keeps others (st.handleFrame garbage a frame tailByte timestampUsec)) := by
  rw [handleFrame]
  by_cases hrestart : st.needRestart tailByte timestampUsec = true
  · have hnot : ¬(st.needRestart tailByte timestampUsec = false ∧ st.TakesAsLast tailByte ∧
        st.Misfit) := fun hcon => by simp [hrestart] at hcon
    refine Or.inr ⟨hnot, ?_⟩
    have hbefore : a.Accounts (({ st with
        transferId := BitVec.ofNat 5 (transferIdFromTailByte tailByte).toNat
        nextToggle := false }).owned ++ others) := h
    obtain ⟨a', ha', hacc, -⟩ := releaseStatePayload_spec hbefore
    rw [if_pos hrestart]
    dsimp only
    rw [ha', Call.ok_bind]
    dsimp only
    split
    · exact ⟨a', _, none, rfl, ⟨rfl, rfl⟩, hacc⟩
    · rename_i hstart
      have hafter : a'.Accounts (({ st with
          bufferBlocks := []
          payloadLen := 0
          transferId := BitVec.ofNat 5 (transferIdFromTailByte tailByte).toNat
          nextToggle := false }).owned ++ others) := hacc
      rcases storeFrame_spec garbage frame tailByte timestampUsec hafter with
        ⟨hlast, -, -⟩ | ⟨-, hkeeps⟩
      · simp [hlast.1] at hstart
      · exact hkeeps
  · rw [if_neg hrestart]
    rcases storeFrame_spec garbage frame tailByte timestampUsec h with
      ⟨hlast, hmisfit, hrun⟩ | ⟨hfit, hkeeps⟩
    · exact Or.inl ⟨Bool.eq_false_iff.mpr hrestart, hlast, hmisfit, hrun⟩
    · exact Or.inr ⟨fun hcon => hfit hcon.2, hkeeps⟩

end CanardRxState

end HandleFrame

/-! ## States and frames -/

/-- `findRxState`. -/
def findRxState (states : List CanardRxState) (transferDescriptor : UInt32) :
    Option CanardRxState :=
  states.find? fun st => decide (st.dtidTtSnidDnid = transferDescriptor)

/-- What is written to the state that has been found. -/
def storeRxState (st : CanardRxState) : List CanardRxState → List CanardRxState
  | [] => []
  | st' :: states =>
      if st'.dtidTtSnidDnid = st.dtidTtSnidDnid then st :: states
      else st' :: storeRxState st states

/-- A transfer the application is told about, and the state it comes from. -/
structure Reception where
  transferDescriptor : UInt32
  transfer : ScatteredRxTransfer

namespace CanardInstance

/-- `prependRxState`. -/
def prependRxState (garbage : Garbage) (ins : CanardInstance) (transferDescriptor : UInt32) :
    Option (CanardInstance × CanardRxState) :=
  (createRxState garbage ins.allocator transferDescriptor).map fun (st, allocator) =>
    ({ ins with allocator, rxStates := st :: ins.rxStates }, st)

/-- `traverseRxStates`. -/
def traverseRxStates (garbage : Garbage) (ins : CanardInstance) (transferDescriptor : UInt32) :
    Option (CanardInstance × CanardRxState) :=
  if ins.rxStates.isEmpty then
    (createRxState garbage ins.allocator transferDescriptor).map fun (st, allocator) =>
      ({ ins with allocator, rxStates := [st] }, st)
  else
    match findRxState ins.rxStates transferDescriptor with
    | some st => some (ins, st)
    | none => ins.prependRxState garbage transferDescriptor

/-- The state a frame is for, or none where the frame is ignored.  `accepted`
is the signature with which `should_accept` accepts the transfer. -/
def selectRxState (garbage : Garbage) (ins : CanardInstance) (frame : CanardCANFrame)
    (tailByte : UInt8) (accepted : Option UInt64) : Option (CanardInstance × CanardRxState) :=
  if isStartOfTransfer tailByte then
    match accepted with
    | none => none
    | some dataTypeSignature =>
        (ins.traverseRxStates garbage (transferDescriptor frame.id)).map fun (ins, st) =>
          (ins, { st with calculatedCrc := crcAddSignature 0xFFFF dataTypeSignature })
  else (findRxState ins.rxStates (transferDescriptor frame.id)).map fun st => (ins, st)

/-- `canardHandleRxFrame` up to the call of `on_reception`. -/
def canardHandleRxFrame (garbage : Garbage) (shouldAccept : Offer → Option UInt64)
    (ins : CanardInstance) (frame : CanardCANFrame) (timestampUsec : UInt64) :
    Call (CanardInstance × Option Reception) :=
  match UavcanAdapter.canardHandleRxFrame ins.nodeId frame, frame.data.getLast? with
  | some offer, some tailByte =>
      match ins.selectRxState garbage frame tailByte (shouldAccept offer) with
      | none => .ok (ins, none)
      | some (ins, st) => do
          let (allocator, st, transfer) ←
            st.handleFrame garbage ins.allocator frame tailByte timestampUsec
          return ({ ins with allocator, rxStates := storeRxState st ins.rxStates },
            transfer.map fun transfer =>
              { transferDescriptor := transferDescriptor frame.id, transfer })
  | _, _ => .ok (ins, none)

/-- `canardReleaseRxTransferPayload`. -/
def canardReleaseRxTransferPayload (ins : CanardInstance) (transfer : ScatteredRxTransfer) :
    Call (CanardInstance × ScatteredRxTransfer) := do
  let allocator ← ins.allocator.freeBlocks (transfer.payloadMiddle.map CanardBufferBlock.block)
  return ({ ins with allocator },
    { transfer with payloadHead := [], payloadMiddle := [], payloadTail := [], payloadLen := 0 })

/-- `canardHandleRxFrame` from there on where `on_reception` returns.  The
payload of a single frame needs no release, and releasing it does nothing. -/
def finishReception (ins : CanardInstance) (r : Reception) : Call CanardInstance := do
  let (ins, _) ← ins.canardReleaseRxTransferPayload r.transfer
  match findRxState ins.rxStates r.transferDescriptor with
  | none => .error .bounds
  | some st => do
      let st ← st.prepareForNextTransfer
      return { ins with rxStates := storeRxState st ins.rxStates }

/-- `canardCleanupStaleTransfers`, from a state on. -/
def cleanupLoop (currentTimeUsec : UInt64) :
    CanardPoolAllocator → List CanardRxState → Call (CanardPoolAllocator × List CanardRxState)
  | a, [] => .ok (a, [])
  | a, st :: states =>
      if currentTimeUsec - st.timestampUsec > transferTimeoutUsec then do
        let (a, st) ← st.releaseStatePayload a
        let a ← a.freeBlock st.block
        cleanupLoop currentTimeUsec a states
      else do
        let (a, states) ← cleanupLoop currentTimeUsec a states
        return (a, st :: states)

/-- `canardCleanupStaleTransfers`. -/
def canardCleanupStaleTransfers (ins : CanardInstance) (currentTimeUsec : UInt64) :
    Call CanardInstance := do
  let (allocator, rxStates) ← cleanupLoop currentTimeUsec ins.allocator ins.rxStates
  return { ins with allocator, rxStates }

/-- `canardSetLocalNodeID`. -/
def canardSetLocalNodeID (ins : CanardInstance) (selfNodeId : UInt8) : Call CanardInstance := do
  Call.assert (ins.nodeId = canardBroadcastNodeId ∧ canardMinNodeId ≤ selfNodeId ∧
    selfNodeId ≤ canardMaxNodeId)
  return { ins with nodeId := selfNodeId }

end CanardInstance

end UavcanAdapter
