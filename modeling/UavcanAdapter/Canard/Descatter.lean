/-
# `Canard.Descatter` — reading bits of a scattered payload

The payload of a transfer of several frames lies in three places: a head, a
chain of blocks and a tail.  `descatterTransferPayload` walks over them and
copies the bits it is asked for piece by piece.

`Progress` says that a read has copied the bits up to where it is.  Every
piece keeps it (`Progress.copyPart`), so the bits that come out are those of
the payload in one piece, and none of the assertions on the way fails
(`descatterTransferPayload_eq`).
-/
import UavcanAdapter.Canard.BitCopy
import UavcanAdapter.Canard.Session

namespace UavcanAdapter

open Base CanardRxState

/-- Where a read of scattered bits is. -/
structure DescatterState where
  output : List UInt8
  inputBitOffset : Nat
  outputBitOffset : Nat := 0
  remainingBitLength : Nat

namespace DescatterState

/-- `amount` bits of a part are copied. -/
def copyPart (s : DescatterState) (part : List UInt8) (offset amount : Nat) :
    Call DescatterState := do
  let output ← copyBitArray part offset amount s.output s.outputBitOffset
  return {
    output
    inputBitOffset := s.inputBitOffset + amount
    outputBitOffset := s.outputBitOffset + amount
    remainingBitLength := s.remainingBitLength - amount }

/-- `Reading head`. -/
def readHead (s : DescatterState) (payloadHead : List UInt8) : Call DescatterState :=
  if s.inputBitOffset < canardMultiframeRxPayloadHeadSize * 8 then
    s.copyPart payloadHead s.inputBitOffset (min s.remainingBitLength
      (canardMultiframeRxPayloadHeadSize * 8 - s.inputBitOffset))
  else .ok s

/-- What is read of the block between two places: nothing, where the read goes
on behind it. -/
def readBlock (s : DescatterState) (block : CanardBufferBlock)
    (blockBitOffset blockEndBitOffset : Nat) : Call DescatterState :=
  if blockEndBitOffset > s.inputBitOffset then do
    Call.assert (s.inputBitOffset ≥ blockBitOffset)
    s.copyPart block.data.toList (s.inputBitOffset - blockBitOffset)
      (min s.remainingBitLength (blockEndBitOffset - s.inputBitOffset))
  else .ok s

/-- `Reading middle`: also `remaining_bits` and `block_bit_offset`. -/
def readMiddle (s : DescatterState) (remainingBits blockBitOffset : Nat) :
    List CanardBufferBlock → Call (DescatterState × Nat × Nat)
  | [] => .ok (s, remainingBits, blockBitOffset)
  | block :: blocks =>
      if s.remainingBitLength = 0 then .ok (s, remainingBits, blockBitOffset)
      else do
        Call.assert (0 < remainingBits)
        let blockEndBitOffset :=
          blockBitOffset + min (canardBufferBlockDataSize * 8) remainingBits
        let s ← s.readBlock block blockBitOffset blockEndBitOffset
        Call.assert (blockEndBitOffset > blockBitOffset)
        readMiddle s (remainingBits - (blockEndBitOffset - blockBitOffset)) blockEndBitOffset blocks

/-- `Reading tail`. -/
def readTail (s : DescatterState) (blockBitOffset : Nat) (payloadTail : List UInt8) :
    Call DescatterState :=
  if ¬payloadTail.isEmpty ∧ 0 < s.remainingBitLength then do
    Call.assert (s.inputBitOffset ≥ blockBitOffset)
    s.copyPart payloadTail (s.inputBitOffset - blockBitOffset) s.remainingBitLength
  else .ok s

end DescatterState

/-- `descatterTransferPayload`: how many bits were read, and the output. -/
def descatterTransferPayload (transfer : ScatteredRxTransfer) (bitOffset bitLength : Nat)
    (output : List UInt8) : Call (Nat × List UInt8) :=
  let payloadBits := transfer.payloadLen.toNat * 8
  if bitOffset ≥ payloadBits then .ok (0, output)
  else do
    let bitLength :=
      if bitOffset + bitLength > payloadBits then payloadBits - bitOffset else bitLength
    Call.assert (0 < bitLength)
    if transfer.payloadMiddle.isEmpty ∧ transfer.payloadTail.isEmpty then
      let output ← copyBitArray transfer.payloadHead bitOffset bitLength output 0
      return (bitLength, output)
    else
      let s : DescatterState :=
        { output, inputBitOffset := bitOffset, remainingBitLength := bitLength }
      let s ← s.readHead transfer.payloadHead
      -- wraps around where the payload is shorter than the head
      let remainingBits :=
        (payloadBits + 2 ^ 32 - canardMultiframeRxPayloadHeadSize * 8) % 2 ^ 32
      let (s, remainingBits, blockBitOffset) ←
        s.readMiddle remainingBits (canardMultiframeRxPayloadHeadSize * 8) transfer.payloadMiddle
      Call.assert (s.remainingBitLength ≤ remainingBits)
      let s ← s.readTail blockBitOffset transfer.payloadTail
      Call.assert (s.inputBitOffset ≤ payloadBits)
      Call.assert (s.outputBitOffset ≤ 64)
      Call.assert (s.remainingBitLength = 0)
      return (bitLength, s.output)

/-- What the descriptor of a transfer points to: the bytes that it says are
there, and a full head if there is anything behind it. -/
structure ScatteredRxTransfer.WellFormed (transfer : ScatteredRxTransfer) : Prop where
  payloadHead : transfer.payloadMiddle = [] ∧ transfer.payloadTail = [] ∨
    transfer.payloadHead.length = canardMultiframeRxPayloadHeadSize
  payloadLen : transfer.payloadLen.toNat ≤
    (transfer.payloadHead ++ bytesOf transfer.payloadMiddle ++ transfer.payloadTail).length

/-! ## What has been read -/

/-- The bits from bit `o` on have been copied as far as the read has come, of
`n` that were asked for. -/
structure Progress (whole : List UInt8) (o n : Nat) (out : List UInt8) (s : DescatterState) :
    Prop where
  input : s.inputBitOffset = o + s.outputBitOffset
  remaining : s.outputBitOffset + s.remainingBitLength = n
  output : s.output = copyRun whole o s.outputBitOffset out 0

namespace Progress

variable {whole out l part r : List UInt8} {o n len remainingBits : Nat}
  {s : DescatterState}

/-- A piece of a part. -/
theorem copyPart (h : Progress whole o n out s) (offset amount : Nat)
    (hwhole : whole = l ++ part ++ r)
    (hoffset : s.inputBitOffset = 8 * l.length + offset)
    (hpart : offset + amount ≤ 8 * part.length) (hpos : 0 < amount)
    (hamount : amount ≤ s.remainingBitLength) (hout : n ≤ 8 * out.length) :
    ∃ s', s.copyPart part offset amount = .ok s' ∧ Progress whole o n out s' ∧
      s'.inputBitOffset = s.inputBitOffset + amount ∧
      s'.remainingBitLength = s.remainingBitLength - amount := by
  have hremaining := h.remaining
  have hfits : s.outputBitOffset + amount ≤ 8 * s.output.length := by
    rw [h.output, length_copyRun]
    omega
  have hrun := copyBitArray_eq_ok.mpr ⟨hpos, hpart, hfits, rfl⟩
  refine ⟨_, by rw [DescatterState.copyPart, hrun]; rfl, ⟨?_, ?_, ?_⟩, rfl, rfl⟩
  · rw [h.input, Nat.add_assoc]
  · dsimp only
    omega
  · have hsame : copyRun part offset amount s.output s.outputBitOffset =
        copyRun whole (o + s.outputBitOffset) amount s.output s.outputBitOffset := by
      rw [← h.input, hoffset, hwhole, copyRun_part hpart]
    have happend := copyRun_append whole out o s.outputBitOffset amount 0
    rw [Nat.zero_add, ← h.output, ← hsame] at happend
    exact happend

/-- A block is jumped over or read, and then the read goes on behind it or is
done. -/
theorem readBlock {block : CanardBufferBlock} (h : Progress whole o n out s) (blockEnd : Nat)
    (hwhole : whole = l ++ block.data.toList ++ r) (hout : n ≤ 8 * out.length)
    (hplace : 8 * l.length ≤ s.inputBitOffset)
    (hend : blockEnd ≤ 8 * l.length + canardBufferBlockDataSize * 8)
    (hmore : 0 < s.remainingBitLength) :
    ∃ s', s.readBlock block (8 * l.length) blockEnd = .ok s' ∧ Progress whole o n out s' ∧
      (0 < s'.remainingBitLength → blockEnd ≤ s'.inputBitOffset) := by
  have hblock : block.data.toList.length = canardBufferBlockDataSize := Vector.length_toList
  rw [DescatterState.readBlock]
  by_cases hreach : blockEnd > s.inputBitOffset
  · obtain ⟨s', hrun, hs', hinput, hremaining⟩ :=
      h.copyPart (s.inputBitOffset - 8 * l.length)
        (min s.remainingBitLength (blockEnd - s.inputBitOffset)) hwhole
        (by omega) (by omega) (by omega) (by omega) hout
    rw [if_pos hreach, Call.assert_of_true hplace]
    exact ⟨s', hrun, hs', by omega⟩
  · rw [if_neg hreach]
    exact ⟨s, rfl, h, fun _ => not_lt.mp hreach⟩

theorem readMiddle_of_done {blockBitOffset : Nat} {blocks : List CanardBufferBlock}
    (h : s.remainingBitLength = 0) :
    s.readMiddle remainingBits blockBitOffset blocks = .ok (s, remainingBits, blockBitOffset) := by
  cases blocks with
  | nil => rfl
  | cons block blocks => rw [DescatterState.readMiddle, if_pos h]

/-- The blocks behind `l`: if bits are left to read, the read stands behind the
last block. -/
theorem readMiddle {blocks : List CanardBufferBlock} (h : Progress whole o n out s)
    (hwhole : whole = l ++ bytesOf blocks ++ r) (hout : n ≤ 8 * out.length)
    (hbits : o + n ≤ 8 * len)
    (hplace : 0 < s.remainingBitLength →
      8 * l.length ≤ s.inputBitOffset ∧ remainingBits = 8 * len - 8 * l.length) :
    ∃ s' remainingBits' blockBitOffset,
      s.readMiddle remainingBits (8 * l.length) blocks = .ok (s', remainingBits', blockBitOffset) ∧
      Progress whole o n out s' ∧
      (0 < s'.remainingBitLength → 8 * (l ++ bytesOf blocks).length ≤ s'.inputBitOffset ∧
        blockBitOffset = 8 * (l ++ bytesOf blocks).length ∧
        remainingBits' = 8 * len - blockBitOffset) := by
  induction blocks generalizing s l remainingBits with
  | nil =>
      refine ⟨s, remainingBits, _, rfl, h, fun hmore => ?_⟩
      rw [bytesOf, List.flatMap_nil, List.append_nil]
      exact ⟨(hplace hmore).1, rfl, (hplace hmore).2⟩
  | cons block blocks ih =>
      by_cases hdone : s.remainingBitLength = 0
      · exact ⟨s, _, _, readMiddle_of_done hdone, h, fun hmore => absurd hdone hmore.ne'⟩
      obtain ⟨hbehind, rfl⟩ := hplace (Nat.pos_of_ne_zero hdone)
      have hinput := h.input
      have hremaining := h.remaining
      have hcons : bytesOf (block :: blocks) = block.data.toList ++ bytesOf blocks := by
        rw [← bytesOf_singleton, ← bytesOf_append, List.singleton_append]
      have hlen : (l ++ block.data.toList).length = l.length + canardBufferBlockDataSize := by
        rw [List.length_append, Vector.length_toList]
      have hwhole' : whole = (l ++ block.data.toList) ++ bytesOf blocks ++ r := by
        rw [hwhole, hcons]
        simp only [List.append_assoc]
      have hfront : whole = l ++ block.data.toList ++ (bytesOf blocks ++ r) := by
        rw [hwhole']
        simp only [List.append_assoc]
      have hmore : 0 < 8 * len - 8 * l.length := by omega
      have hsize : 0 < canardBufferBlockDataSize := by decide
      rw [DescatterState.readMiddle, if_neg hdone]
      generalize hend : 8 * l.length +
        min (canardBufferBlockDataSize * 8) (8 * len - 8 * l.length) = blockEnd
      obtain ⟨s₁, hrun₁, hs₁, hplace₁⟩ := h.readBlock blockEnd hfront hout hbehind
        (by omega) (Nat.pos_of_ne_zero hdone)
      have hremaining₁ := hs₁.remaining
      have hinput₁ := hs₁.input
      dsimp only
      rw [Call.assert_of_true hmore, Call.ok_bind, hrun₁, Call.ok_bind,
        Call.assert_of_true (show blockEnd > 8 * l.length by omega), Call.ok_bind]
      by_cases hfull : blockEnd = 8 * (l ++ block.data.toList).length
      · have hnext : 0 < s₁.remainingBitLength →
            8 * (l ++ block.data.toList).length ≤ s₁.inputBitOffset ∧
              8 * len - 8 * l.length - (blockEnd - 8 * l.length) =
                8 * len - 8 * (l ++ block.data.toList).length :=
          fun hmore₁ => ⟨hfull ▸ hplace₁ hmore₁, by omega⟩
        obtain ⟨s', remainingBits', blockBitOffset, hrun, hs', hplace'⟩ := ih hs₁ hwhole' hnext
        rw [← hfull] at hrun
        rw [hcons, ← List.append_assoc]
        exact ⟨s', remainingBits', blockBitOffset, hrun, hs', hplace'⟩
      · -- the payload ends in this block, and so does what is to be read
        have hnone : s₁.remainingBitLength = 0 := by
          by_contra hcon
          have hle := hplace₁ (Nat.pos_of_ne_zero hcon)
          omega
        exact ⟨s₁, _, _, readMiddle_of_done hnone, hs₁, fun hcon => absurd hnone hcon.ne'⟩

/-- The bits in front of the blocks. -/
theorem readHead {payloadHead : List UInt8} (h : Progress whole o n out s)
    (hwhole : whole = payloadHead ++ r) (hout : n ≤ 8 * out.length)
    (hlen : payloadHead.length = canardMultiframeRxPayloadHeadSize)
    (hmore : 0 < s.remainingBitLength) :
    ∃ s', s.readHead payloadHead = .ok s' ∧ Progress whole o n out s' ∧
      (0 < s'.remainingBitLength → 8 * payloadHead.length ≤ s'.inputBitOffset) := by
  rw [DescatterState.readHead]
  by_cases hin : s.inputBitOffset < canardMultiframeRxPayloadHeadSize * 8
  · have hfront : whole = [] ++ payloadHead ++ r := hwhole
    obtain ⟨s', hrun, hs', hinput, hremaining⟩ :=
      h.copyPart s.inputBitOffset (min s.remainingBitLength
        (canardMultiframeRxPayloadHeadSize * 8 - s.inputBitOffset)) hfront (by simp)
        (by omega) (by omega) (by omega) hout
    rw [if_pos hin]
    exact ⟨s', hrun, hs', by omega⟩
  · rw [if_neg hin]
    exact ⟨s, rfl, h, fun _ => by omega⟩

/-- What is left is in the tail. -/
theorem readTail {payloadTail : List UInt8} {blockBitOffset : Nat}
    (h : Progress whole o n out s) (hwhole : whole = l ++ payloadTail) (hout : n ≤ 8 * out.length)
    (hbits : o + n ≤ 8 * whole.length)
    (hplace : 0 < s.remainingBitLength →
      8 * l.length ≤ s.inputBitOffset ∧ blockBitOffset = 8 * l.length) :
    ∃ s', s.readTail blockBitOffset payloadTail = .ok s' ∧ Progress whole o n out s' ∧
      s'.remainingBitLength = 0 := by
  have hinput := h.input
  have hremaining := h.remaining
  have hlen : whole.length = l.length + payloadTail.length := by
    rw [hwhole, List.length_append]
  rw [DescatterState.readTail]
  by_cases hdone : s.remainingBitLength = 0
  · rw [if_neg fun hcon => absurd hdone hcon.2.ne']
    exact ⟨s, rfl, h, hdone⟩
  obtain ⟨hbehind, rfl⟩ := hplace (Nat.pos_of_ne_zero hdone)
  have hne : payloadTail ≠ [] := by
    rintro rfl
    rw [List.length_nil] at hlen
    omega
  have hback : whole = l ++ payloadTail ++ [] := by
    rw [hwhole, List.append_nil]
  obtain ⟨s', hrun, hs', -, hremaining'⟩ :=
    h.copyPart (s.inputBitOffset - 8 * l.length) s.remainingBitLength hback
      (by omega) (by omega) (by omega) le_rfl hout
  rw [if_pos ⟨by rwa [List.isEmpty_iff], Nat.pos_of_ne_zero hdone⟩, Call.assert_of_true hbehind]
  exact ⟨s', hrun, hs', by omega⟩

end Progress

section Descatter

variable {transfer : ScatteredRxTransfer} {bitOffset bitLength : Nat} {output : List UInt8}

theorem ScatteredRxTransfer.WellFormed.length_payload (h : transfer.WellFormed) :
    transfer.payload.length = transfer.payloadLen.toNat :=
  List.length_take_of_le h.payloadLen

/-- Reading a scattered payload never fails, and the bits are those of the
payload in one piece. -/
theorem descatterTransferPayload_eq (h : transfer.WellFormed) (hpos : 0 < bitLength)
    (hle : bitLength ≤ 64) (hout : 8 ≤ output.length) :
    descatterTransferPayload transfer bitOffset bitLength output =
      .ok (min bitLength (8 * transfer.payload.length - bitOffset),
        copyRun transfer.payload bitOffset (min bitLength (8 * transfer.payload.length - bitOffset))
          output 0) := by
  have hlen := h.payloadLen
  have h16 : transfer.payloadLen.toNat < 2 ^ 16 := transfer.payloadLen.toNat_lt
  rw [descatterTransferPayload, h.length_payload]
  by_cases hbehind : bitOffset ≥ transfer.payloadLen.toNat * 8
  · have hzero : min bitLength (8 * transfer.payloadLen.toNat - bitOffset) = 0 := by omega
    rw [if_pos hbehind, hzero, copyRun_zero]
  rw [if_neg hbehind]
  have hbits : (if bitOffset + bitLength > transfer.payloadLen.toNat * 8 then
      transfer.payloadLen.toNat * 8 - bitOffset else bitLength) =
      min bitLength (8 * transfer.payloadLen.toNat - bitOffset) := by
    split <;> omega
  dsimp only
  rw [hbits]
  generalize hn : min bitLength (8 * transfer.payloadLen.toNat - bitOffset) = n
  rw [Call.assert_of_true (show 0 < n by omega), Call.ok_bind, ScatteredRxTransfer.payload,
    copyRun_take (by omega)]
  by_cases hsingle : transfer.payloadMiddle.isEmpty ∧ transfer.payloadTail.isEmpty
  · obtain ⟨hmiddle, htail⟩ := hsingle
    rw [List.isEmpty_iff] at hmiddle htail
    rw [hmiddle, htail, bytesOf, List.flatMap_nil, List.append_nil, List.append_nil] at hlen ⊢
    rw [if_pos ⟨rfl, rfl⟩, copyBitArray_eq_ok.mpr ⟨by omega, by omega, by omega, rfl⟩]
    rfl
  · rw [if_neg hsingle]
    have hhead := h.payloadHead.resolve_left fun hnil => hsingle (by rw [hnil.1, hnil.2]; simp)
    generalize hwhole : transfer.payloadHead ++ bytesOf transfer.payloadMiddle ++
      transfer.payloadTail = whole at hlen ⊢
    have hstart : Progress whole bitOffset n output
        { output, inputBitOffset := bitOffset, remainingBitLength := n } :=
      ⟨rfl, Nat.zero_add n, copyRun_zero.symm⟩
    have hfront : whole = transfer.payloadHead ++
        (bytesOf transfer.payloadMiddle ++ transfer.payloadTail) := by
      rw [← hwhole, List.append_assoc]
    obtain ⟨s₁, hrun₁, hs₁, hplace₁⟩ := hstart.readHead hfront (by omega) hhead
      (show 0 < n by omega)
    have hinput₁ := hs₁.input
    have hremaining₁ := hs₁.remaining
    have hsize : 8 * transfer.payloadHead.length = canardMultiframeRxPayloadHeadSize * 8 := by
      rw [hhead, Nat.mul_comm]
    have hblocks : 0 < s₁.remainingBitLength →
        8 * transfer.payloadHead.length ≤ s₁.inputBitOffset ∧
          (transfer.payloadLen.toNat * 8 + 2 ^ 32 - canardMultiframeRxPayloadHeadSize * 8) %
            2 ^ 32 = 8 * transfer.payloadLen.toNat - 8 * transfer.payloadHead.length := by
      intro hmore
      have hle₁ := hplace₁ hmore
      exact ⟨hle₁, by omega⟩
    obtain ⟨s₂, remainingBits, blockBitOffset, hrun₂, hs₂, hplace₂⟩ :=
      hs₁.readMiddle hwhole.symm (by omega) (by omega) hblocks
    rw [hsize] at hrun₂
    have hinput₂ := hs₂.input
    have hremaining₂ := hs₂.remaining
    obtain ⟨s₃, hrun₃, hs₃, hdone⟩ := hs₂.readTail hwhole.symm (by omega) (by omega)
      fun hmore => ⟨(hplace₂ hmore).1, (hplace₂ hmore).2.1⟩
    have hinput₃ := hs₃.input
    have hremaining₃ := hs₃.remaining
    have hroom : s₂.remainingBitLength ≤ remainingBits := by
      rcases Nat.eq_zero_or_pos s₂.remainingBitLength with hzero | hmore
      · omega
      · obtain ⟨hge, hblock, hbits₂⟩ := hplace₂ hmore
        omega
    have hall : s₃.outputBitOffset = n := by omega
    rw [hrun₁, Call.ok_bind, hrun₂, Call.ok_bind]
    dsimp only
    rw [Call.assert_of_true hroom, Call.ok_bind, hrun₃, Call.ok_bind,
      Call.assert_of_true (by omega), Call.ok_bind, Call.assert_of_true (by omega), Call.ok_bind,
      Call.assert_of_true hdone, Call.ok_bind, hs₃.output, hall]
    rfl

end Descatter

/-! ## What is handed over -/

namespace CanardRxState

variable {garbage : Garbage} {a a' : CanardPoolAllocator} {st st' : CanardRxState}
  {frame : CanardCANFrame} {tailByte : UInt8} {timestampUsec : UInt64} {data : List UInt8}
  {transfer : Option ScatteredRxTransfer}

/-- There is a place for every byte that is counted. -/
def Covered (st : CanardRxState) : Prop := st.payloadLen.toNat ≤ st.storage.length

theorem covered_of_eq_zero (h : st.payloadLen = 0) : st.Covered := by
  rw [Covered, h]
  exact Nat.zero_le _

/-- The place of the next byte is not in front of what is counted. -/
theorem Covered.le_place {front : List CanardBufferBlock} {block : CanardBufferBlock}
    {index n : Nat} (h : st.Covered) (hn : n < canardBufferBlockDataSize)
    (hsome : currentBlock garbage a st n = some (front, block, index, a')) :
    st.payloadLen.toNat ≤ canardMultiframeRxPayloadHeadSize +
      canardBufferBlockDataSize * front.length + index := by
  rw [Covered, length_storage] at h
  rw [currentBlock] at hsome
  split at hsome
  · rename_i hnone
    obtain ⟨⟨b, a₁⟩, -, heq⟩ := Option.map_eq_some_iff.mp hsome
    cases heq
    rwa [List.getLast?_eq_none_iff.mp hnone] at h
  · rename_i last hlast
    split at hsome
    · obtain ⟨⟨b, a₁⟩, -, heq⟩ := Option.map_eq_some_iff.mp hsome
      cases heq
      exact h
    · rename_i hnot
      cases hsome
      have hcount : st.bufferBlocks.length = st.bufferBlocks.dropLast.length + 1 := by
        nth_rewrite 1 [← List.dropLast_append_getLast? _ hlast]
        exact List.length_append
      have hlt : st.payloadLen.toNat < 2 ^ 10 := st.payloadLen.isLt
      simp only [canardMultiframeRxPayloadHeadSize, canardBufferBlockDataSize, canardMemBlockSize,
        offsetOfData, offsetOfBufferHead] at h hn ⊢
      rcases Nat.lt_or_ge st.payloadLen.toNat 6 with hshort | hge
      · omega
      have hindex : st.indexAtNthBlock.toNat = (st.payloadLen.toNat - 6) % 28 := by
        have hfull : canardMultiframeRxPayloadHeadSize ≤ st.payloadLen.toNat := hge
        rw [toNat_indexAtNthBlock, toNat_ofNat_sub hfull (by omega)]
        rfl
      -- a full chain would have got a new block
      have hfull : st.payloadLen.toNat ≠ 6 + 28 * st.bufferBlocks.length := by
        intro hlen
        have hnum : (st.numBufferBlocks n).toNat = st.bufferBlocks.length + 1 := by
          rw [numBufferBlocks, UInt8.toNat_add, UInt32.toNat_toUInt8, UInt32.toNat_div,
            toNat_ofNat_sub (by exact Nat.le_add_right_of_le hge) (by omega)]
          show ((st.payloadLen.toNat + n - 6) / 28 % 2 ^ 8 + 1) % 2 ^ 8 = _
          omega
        refine hnot ⟨?_, ?_⟩
        · rw [gt_iff_lt, UInt8.lt_iff_toNat_lt, hnum,
            UInt8.toNat_ofNat_of_lt' (show st.bufferBlocks.length < 2 ^ 8 by omega)]
          exact Nat.lt_succ_self _
        · rw [← UInt8.toNat_inj, hindex]
          show _ = 0
          omega
      rw [hindex]
      omega

/-- Pushing makes room for what it counts, also where the count wraps around. -/
theorem Covered.push (h : st.Covered) (hdata : data.length < canardBufferBlockDataSize)
    (hok : bufferBlockPushBytes garbage a st data = .ok (a', st', 1)) : st'.Covered := by
  have hlen : (st.payloadLen + BitVec.ofNat 10 data.length).toNat ≤
      st.payloadLen.toNat + data.length := by
    rw [BitVec.toNat_add, BitVec.toNat_ofNat]
    exact (Nat.mod_le _ _).trans (Nat.add_le_add_left (Nat.mod_le _ _) _)
  rw [bufferBlockPushBytes] at hok
  generalize hfill : fill st.bufferHead st.payloadLen.toNat data = filled at hok
  obtain ⟨bufferHead, rest⟩ := filled
  have hrest : rest.length = data.length - (canardMultiframeRxPayloadHeadSize -
      st.payloadLen.toNat) := by
    have hsnd := fill_snd st.bufferHead st.payloadLen.toNat data
    rw [hfill] at hsnd
    rw [show rest = _ from hsnd, List.length_drop]
  rw [Covered, length_storage]
  dsimp only at hok
  split at hok
  · rename_i hall
    cases Call.pure_eq_ok.mp hok
    rw [List.isEmpty_iff] at hall
    rw [hall.2, List.length_nil] at hrest
    dsimp only
    omega
  · split at hok
    · cases Call.pure_eq_ok.mp hok
    · rename_i front block index a₁ hsome
      have hindex := (currentBlock_spec hsome).1
      have hplace := h.le_place hdata hsome
      have htake : (block.data.toList.take index).length = index := by
        rw [List.length_take, Vector.length_toList]
        omega
      obtain ⟨blocks, a₂, enough, new, hrun, -, -, hgood, -⟩ :=
        fillBlocks_spec garbage a₁ (Nat.lt_succ_self rest.length) hindex
          (List.take_prefix index block.data.toList) htake
      rw [hrun, Call.ok_bind] at hok
      cases enough with
      | false => cases Call.pure_eq_ok.mp hok
      | true =>
          have hblocks := (hgood rfl).1.length_le
          rw [List.length_append, htake, length_bytesOf] at hblocks
          cases Call.pure_eq_ok.mp hok
          dsimp only
          rw [List.length_append, Nat.mul_add]
          omega

/-- The bytes of a frame are taken, or the state is empty again. -/
theorem Covered.pushFrame {next : CanardRxState → CanardRxState} (h : st.Covered)
    (hdata : data.length < canardBufferBlockDataSize)
    (hok : pushFrame garbage a st data next = .ok (a', st', transfer))
    (hnext : ∀ st, (next st).payloadLen = st.payloadLen ∧ (next st).storage = st.storage) :
    st'.Covered ∧ transfer = none := by
  obtain ⟨a₁, st₁, result, new, hrun, -, -, -, hresult, -⟩ :=
    bufferBlockPushBytes_spec garbage a st data
  rw [CanardRxState.pushFrame, hrun, Call.ok_bind] at hok
  rcases hresult with rfl | rfl
  · cases Call.pure_eq_ok.mp hok
    obtain ⟨hlen, hstorage⟩ := hnext st₁
    refine ⟨?_, rfl⟩
    show (next st₁).payloadLen.toNat ≤ (next st₁).storage.length
    rw [hlen, hstorage]
    exact h.push hdata hrun
  · obtain ⟨⟨a₂, st₂⟩, hrelease, hok⟩ := Call.bind_eq_ok.mp hok
    obtain ⟨a₃, -, hrelease⟩ := Call.bind_eq_ok.mp hrelease
    cases Call.pure_eq_ok.mp hrelease
    dsimp only at hok
    rw [prepareForNextTransfer_of_nil rfl, Call.ok_bind] at hok
    cases Call.pure_eq_ok.mp hok
    exact ⟨covered_of_eq_zero rfl, rfl⟩

/-- The last frame of a transfer finds the end of what is counted. -/
theorem Covered.storeTail {payload tail : List UInt8} (h : st.Covered)
    (hcount : st.bufferBlocks.length < 2 ^ 16)
    (hok : st.storeTail payload = .ok (st', tail)) :
    st'.payloadLen = st.payloadLen ∧
      st'.payloadLen.toNat + payload.length ≤ (st'.storage ++ tail).length := by
  have hfill : ∀ {n : Nat} (v : Vector UInt8 n) (i : Nat),
      payload.length ≤ (fill v i payload).2.length + (n - i) := by
    intro n v i
    rw [fill_snd, List.length_drop]
    omega
  rw [Covered, length_storage] at h
  rw [List.length_append, length_storage]
  rw [CanardRxState.storeTail] at hok
  split at hok
  · rename_i hroom
    have hleft := hfill st.bufferHead st.payloadLen.toNat
    cases hok
    refine ⟨rfl, ?_⟩
    dsimp only
    omega
  · split at hok
    · rename_i hnone
      rw [List.getLast?_eq_none_iff.mp hnone] at h
      cases hok
      exact ⟨rfl, Nat.add_le_add_right (h.trans (Nat.le_add_right _ _)) _⟩
    · rename_i last hlast
      obtain ⟨u, hassert, hok⟩ := Call.bind_eq_ok.mp hok
      have hcons : st.bufferBlocks.length = st.bufferBlocks.dropLast.length + 1 := by
        nth_rewrite 1 [← List.dropLast_append_getLast? _ hlast]
        exact List.length_append
      have hlt : st.payloadLen.toNat < 2 ^ 10 := st.payloadLen.isLt
      have hwithin := (ofNat_sub_lt_iff (by omega)
        (show canardMultiframeRxPayloadHeadSize +
          canardBufferBlockDataSize * (st.bufferBlocks.length - 1) < 2 ^ 31 by
            simp only [canardMultiframeRxPayloadHeadSize, canardBufferBlockDataSize,
              canardMemBlockSize, offsetOfData, offsetOfBufferHead]
            omega) (by decide)).mp (Call.assert_eq_ok.mp hassert)
      rw [toNat_ofNat_sub hwithin.1 (by omega)] at hok
      have hleft := hfill last.data (st.payloadLen.toNat - (canardMultiframeRxPayloadHeadSize +
        canardBufferBlockDataSize * (st.bufferBlocks.length - 1)))
      cases hok
      refine ⟨rfl, ?_⟩
      dsimp only
      rw [List.length_append, List.length_singleton, Nat.mul_add, Nat.mul_one]
      rw [hcons, Nat.add_sub_cancel] at hleft hwithin ⊢
      omega

/-- Behind the restart: the state stays covered, and so is what is handed over. -/
theorem Covered.storeFrame (h : st.Covered) (hcount : st.bufferBlocks.length < 2 ^ 16)
    (hok : st.storeFrame garbage a frame tailByte timestampUsec = .ok (a', st', transfer)) :
    (transfer = none → st'.Covered) ∧ ∀ t ∈ transfer, t.WellFormed := by
  have hseven : frame.data.dropLast.length ≤ 7 := length_dropLast_le
  have hsmall : ∀ {n : Nat}, n ≤ 7 → n < canardBufferBlockDataSize :=
    fun hn => Nat.lt_of_le_of_lt hn (by decide)
  rw [CanardRxState.storeFrame] at hok
  split at hok
  · cases hok
    refine ⟨fun hnone => (by cases hnone), ?_⟩
    intro t ht
    cases ht
    refine ⟨Or.inl ⟨rfl, rfl⟩, ?_⟩
    show (UInt8.ofNat frame.data.dropLast.length).toUInt16.toNat ≤
      (frame.data ++ bytesOf [] ++ []).length
    rw [UInt8.toNat_toUInt16, UInt8.toNat_ofNat_of_lt' (show _ < 2 ^ 8 by omega), bytesOf,
      List.flatMap_nil, List.append_nil, List.append_nil, List.length_dropLast]
    exact Nat.sub_le _ _
  split at hok
  · cases hok
    exact ⟨fun _ => h, fun t ht => by cases ht⟩
  split at hok
  · cases hok
    exact ⟨fun _ => h, fun t ht => by cases ht⟩
  split at hok
  · split at hok
    · cases hok
      exact ⟨fun _ => h, fun t ht => by cases ht⟩
    · have hst : ({ st with timestampUsec }).Covered := h
      have hfive : (frame.data.dropLast.drop 2).length ≤ 7 := by
        rw [List.length_drop]
        omega
      obtain ⟨hcovered, rfl⟩ := hst.pushFrame (hsmall hfive) hok fun _ => ⟨rfl, rfl⟩
      exact ⟨fun _ => hcovered, fun t ht => by cases ht⟩
  split at hok
  · obtain ⟨hcovered, rfl⟩ := h.pushFrame (hsmall hseven) hok fun _ => ⟨rfl, rfl⟩
    exact ⟨fun _ => hcovered, fun t ht => by cases ht⟩
  · obtain ⟨⟨st₁, tail⟩, htail, hok⟩ := Call.bind_eq_ok.mp hok
    obtain ⟨hlen, hroom⟩ := h.storeTail hcount htail
    dsimp only at hok
    split at hok
    · cases Call.pure_eq_ok.mp hok
      refine ⟨fun hnone => (by cases hnone), ?_⟩
      intro t ht
      cases ht
      refine ⟨Or.inr Vector.length_toList, ?_⟩
      have hlt : st₁.payloadLen.toNat < 2 ^ 10 := st₁.payloadLen.isLt
      show (UInt16.ofNat (st₁.payloadLen.toNat + frame.data.dropLast.length)).toNat ≤
        (st₁.storage ++ tail).length
      rwa [UInt16.toNat_ofNat_of_lt' (show _ < 2 ^ 16 by omega)]
    · obtain ⟨a₂, -, hok⟩ := Call.bind_eq_ok.mp hok
      rw [prepareForNextTransfer_of_nil rfl, Call.ok_bind] at hok
      cases Call.pure_eq_ok.mp hok
      exact ⟨fun _ => covered_of_eq_zero rfl, fun t ht => by cases ht⟩

theorem Covered.handleFrame (h : st.Covered) (hcount : st.bufferBlocks.length < 2 ^ 16)
    (hok : st.handleFrame garbage a frame tailByte timestampUsec = .ok (a', st', transfer)) :
    (transfer = none → st'.Covered) ∧ ∀ t ∈ transfer, t.WellFormed := by
  rw [CanardRxState.handleFrame] at hok
  split at hok
  · obtain ⟨⟨a₁, st₁⟩, hrelease, hok⟩ := Call.bind_eq_ok.mp hok
    obtain ⟨a₂, -, hrelease⟩ := Call.bind_eq_ok.mp hrelease
    cases Call.pure_eq_ok.mp hrelease
    dsimp only at hok
    split at hok
    · cases Call.pure_eq_ok.mp hok
      exact ⟨fun _ => covered_of_eq_zero rfl, fun t ht => by cases ht⟩
    · exact (covered_of_eq_zero rfl).storeFrame (by exact Nat.two_pow_pos 16) hok
  · exact h.storeFrame hcount hok

end CanardRxState

end UavcanAdapter
