/-
# `Canard.RxState` — how a payload is collected

The first six bytes of a payload lie in the state of its transfer, the others
in a chain of blocks that grows as frames come in.  `bufferBlockPushBytes`
appends the bytes of a frame; it finds its place in the last block from the
number of bytes that are there, which has ten bits only.

`Holds` says that a state holds a list of bytes: the head and the blocks, one
behind the other, begin with it, and less than a block is left over, or a
whole one that has been taken ahead.  As long as the number of bytes fits
into ten bits, pushing keeps it (`holds_bufferBlockPushBytes`).
-/
import UavcanAdapter.Base.Fill
import UavcanAdapter.Canard.Types

namespace UavcanAdapter

open Base

namespace CanardRxState

/-! ## The functions -/

/-- The state as it waits for the next transfer. -/
def waiting (st : CanardRxState) : CanardRxState :=
  { st with transferId := st.transferId + 1, payloadLen := 0, nextToggle := false }

/-- `prepareForNextTransfer`. -/
def prepareForNextTransfer (st : CanardRxState) : Call CanardRxState := do
  Call.assert (st.bufferBlocks.isEmpty)
  return st.waiting

/-- `releaseStatePayload`. -/
def releaseStatePayload (a : CanardPoolAllocator) (st : CanardRxState) :
    Call (CanardPoolAllocator × CanardRxState) := do
  let a ← a.freeBlocks (st.bufferBlocks.map CanardBufferBlock.block)
  return (a, { st with bufferBlocks := [], payloadLen := 0 })

/-- The loop of `bufferBlockPushBytes`, from `block` on: the chain from there
on, and whether there was memory enough. -/
def fillBlocks (garbage : Garbage) : Nat → CanardPoolAllocator → CanardBufferBlock → Nat →
    List UInt8 → Call (List CanardBufferBlock × CanardPoolAllocator × Bool)
  | 0, _, _, _, _ => .error .hang
  | fuel + 1, a, block, index, data =>
      if data.isEmpty then .ok ([block], a, true)
      else
        let (filled, rest) := fill block.data index data
        let block := { block with data := filled }
        if rest.isEmpty then .ok ([block], a, true)
        else match createBufferBlock garbage a with
          | none => .ok ([block], a, false)
          | some (next, a) => do
              let (blocks, a, enough) ← fillBlocks garbage fuel a next 0 rest
              return (block :: blocks, a, enough)

/-- `index_at_nth_block`. -/
def indexAtNthBlock (st : CanardRxState) : UInt8 :=
  ((UInt32.ofNat st.payloadLen.toNat - UInt32.ofNat canardMultiframeRxPayloadHeadSize) %
    UInt32.ofNat canardBufferBlockDataSize).toUInt8

/-- `num_buffer_blocks`. -/
def numBufferBlocks (st : CanardRxState) (dataLen : Nat) : UInt8 :=
  ((UInt32.ofNat (st.payloadLen.toNat + dataLen) -
    UInt32.ofNat canardMultiframeRxPayloadHeadSize) /
      UInt32.ofNat canardBufferBlockDataSize).toUInt8 + 1

/-- Where `dataLen` more bytes go: the blocks in front, the block in which they
begin, and the index in it. -/
def currentBlock (garbage : Garbage) (a : CanardPoolAllocator) (st : CanardRxState)
    (dataLen : Nat) :
    Option (List CanardBufferBlock × CanardBufferBlock × Nat × CanardPoolAllocator) :=
  match st.bufferBlocks.getLast? with
  | none => (createBufferBlock garbage a).map fun (block, a) => ([], block, 0, a)
  | some last =>
      if st.numBufferBlocks dataLen > UInt8.ofNat st.bufferBlocks.length ∧
          st.indexAtNthBlock = 0 then
        (createBufferBlock garbage a).map fun (block, a) => (st.bufferBlocks, block, 0, a)
      else some (st.bufferBlocks.dropLast, last, st.indexAtNthBlock.toNat, a)

/-- `bufferBlockPushBytes`. -/
def bufferBlockPushBytes (garbage : Garbage) (a : CanardPoolAllocator) (st : CanardRxState)
    (data : List UInt8) : Call (CanardPoolAllocator × CanardRxState × Int) := do
  let (bufferHead, rest) := fill st.bufferHead st.payloadLen.toNat data
  let payloadLen := st.payloadLen + BitVec.ofNat 10 data.length
  if st.payloadLen.toNat < canardMultiframeRxPayloadHeadSize ∧ rest.isEmpty then
    return (a, { st with bufferHead, payloadLen }, 1)
  match currentBlock garbage a st data.length with
  | none => return (a, { st with bufferHead }, -canardErrorOutOfMemory)
  | some (front, block, index, a) =>
      let (blocks, a, enough) ← fillBlocks garbage (rest.length + 1) a block index rest
      let bufferBlocks := front ++ blocks
      if enough then return (a, { st with bufferHead, bufferBlocks, payloadLen }, 1)
      else return (a, { st with bufferHead, bufferBlocks }, -canardErrorOutOfMemory)

/-! ## Memory -/

/-- The blocks of the payload. -/
def payloadBlocks (st : CanardRxState) : List Nat := st.bufferBlocks.map CanardBufferBlock.block

/-- The blocks that belong to a state. -/
def owned (st : CanardRxState) : List Nat := st.block :: st.payloadBlocks

variable {garbage : Garbage} {a a' : CanardPoolAllocator} {st st' : CanardRxState}
  {block : CanardBufferBlock} {blocks front : List CanardBufferBlock} {bytes data : List UInt8}
  {others : List Nat} {index fuel : Nat} {result : Int}

theorem createBufferBlock_eq_some (h : createBufferBlock garbage a = some (block, a')) :
    a.Takes [block.block] a' ∧ a.freeList = block.block :: a'.freeList := by
  obtain ⟨⟨p, a₁⟩, hp, heq⟩ := Option.map_eq_some_iff.mp h
  cases heq
  exact ⟨.allocate hp, (CanardPoolAllocator.freeList_of_allocateBlock hp).1⟩

theorem createBufferBlock_eq_none : createBufferBlock garbage a = none ↔ a.freeList = [] :=
  Option.map_eq_none_iff.trans CanardPoolAllocator.allocateBlock_eq_none

/-- Releasing the payload succeeds, and the state keeps its own block. -/
theorem releaseStatePayload_spec (h : a.Accounts (st.owned ++ others)) :
    ∃ a', releaseStatePayload a st = .ok (a', { st with bufferBlocks := [], payloadLen := 0 }) ∧
      a'.Accounts (st.block :: others) ∧ a'.freeList = st.payloadBlocks.reverse ++ a.freeList := by
  have hperm : (st.owned ++ others).Perm (st.payloadBlocks ++ (st.block :: others)) :=
    List.perm_middle.symm
  obtain ⟨a', ha', hacc, hfree⟩ := (h.of_perm hperm).frees
  refine ⟨a', ?_, hacc, hfree⟩
  rw [releaseStatePayload]
  exact Call.bind_eq_ok.mpr ⟨a', ha', rfl⟩

/-! ## The loop -/

/-- The bytes of a chain of blocks. -/
def bytesOf (blocks : List CanardBufferBlock) : List UInt8 :=
  blocks.flatMap fun block => block.data.toList

theorem bytesOf_append (xs ys : List CanardBufferBlock) :
    bytesOf (xs ++ ys) = bytesOf xs ++ bytesOf ys := List.flatMap_append

theorem bytesOf_singleton (block : CanardBufferBlock) : bytesOf [block] = block.data.toList :=
  List.flatMap_singleton _ _

theorem length_bytesOf (blocks : List CanardBufferBlock) :
    (bytesOf blocks).length = canardBufferBlockDataSize * blocks.length := by
  induction blocks with
  | nil => rfl
  | cons b blocks ih =>
      rw [← List.singleton_append, bytesOf_append, List.length_append, ih, bytesOf_singleton,
        Vector.length_toList, List.length_append, List.length_singleton, Nat.mul_add, Nat.mul_one]

/-- The loop appends what it is given to what the first block holds, and stops
early only if there is no memory left. -/
theorem fillBlocks_spec (garbage : Garbage) (a : CanardPoolAllocator)
    (hfuel : data.length < fuel) (hindex : index < canardBufferBlockDataSize)
    (hbytes : bytes <+: block.data.toList) (hlen : bytes.length = index) :
    ∃ blocks a' enough new, fillBlocks garbage fuel a block index data = .ok (blocks, a', enough) ∧
      blocks.map CanardBufferBlock.block = block.block :: new ∧ a.Takes new a' ∧
      (enough = true → bytes ++ data <+: bytesOf blocks ∧
        (bytesOf blocks).length ≤ index + data.length + canardBufferBlockDataSize) ∧
      (index + data.length ≤ canardBufferBlockDataSize * (1 + a.freeList.length) →
        enough = true) := by
  induction fuel generalizing a block index data bytes with
  | zero => exact absurd hfuel (Nat.not_lt_zero _)
  | succ fuel ih =>
      have hblock : block.data.toList.length = canardBufferBlockDataSize := Vector.length_toList
      rw [fillBlocks]
      by_cases hempty : data.isEmpty
      · rw [if_pos hempty]
        rw [List.isEmpty_iff] at hempty
        subst hempty
        refine ⟨_, _, _, [], rfl, rfl, .refl, fun _ => ⟨?_, ?_⟩, fun _ => rfl⟩
        · rwa [List.append_nil, bytesOf_singleton]
        · rw [bytesOf_singleton, hblock]
          omega
      · rw [if_neg hempty]
        have hpos : 0 < data.length := by
          rw [List.isEmpty_iff] at hempty
          exact List.length_pos_iff.mpr hempty
        have hbegins := prefix_fill data hbytes hlen
        have hsnd : (fill block.data index data).2 =
            data.drop (canardBufferBlockDataSize - index) := fill_snd _ _ _
        simp only [hsnd]
        by_cases hrest : (data.drop (canardBufferBlockDataSize - index)).isEmpty
        · rw [if_pos hrest]
          have hfits : data.length ≤ canardBufferBlockDataSize - index := by
            rwa [List.isEmpty_iff, List.drop_eq_nil_iff] at hrest
          refine ⟨_, _, _, [], rfl, rfl, .refl, fun _ => ⟨?_, ?_⟩, fun _ => rfl⟩
          · rwa [List.take_of_length_le hfits, ← bytesOf_singleton
              { block with data := (fill block.data index data).1 }] at hbegins
          · rw [bytesOf_singleton, Vector.length_toList]
            omega
        · rw [if_neg hrest]
          have hmore : canardBufferBlockDataSize - index < data.length := by
            rw [List.isEmpty_iff, List.drop_eq_nil_iff] at hrest
            omega
          cases hcreate : createBufferBlock garbage a with
          | none =>
              refine ⟨_, _, _, [], rfl, rfl, .refl, nofun, fun hroom => ?_⟩
              rw [createBufferBlock_eq_none.mp hcreate, List.length_nil] at hroom
              omega
          | some p =>
              obtain ⟨next, a₁⟩ := p
              obtain ⟨htakes, hfree⟩ := createBufferBlock_eq_some hcreate
              have hshort : (data.drop (canardBufferBlockDataSize - index)).length < fuel := by
                rw [List.length_drop]
                omega
              have hnil : [] <+: next.data.toList := List.nil_prefix
              have hzero : 0 < canardBufferBlockDataSize := by decide
              obtain ⟨blocks, a', enough, new, hrun, hmap, htakes', hgood, hroom⟩ :=
                ih (a := a₁) hshort hzero hnil rfl
              refine ⟨_, a', enough, next.block :: new, Call.bind_eq_ok.mpr ⟨_, hrun, rfl⟩, ?_,
                htakes.trans htakes', ?_, ?_⟩
              · rw [List.map_cons, hmap]
              · intro henough
                obtain ⟨hdata, hsize⟩ := hgood henough
                -- the first block is full, so it holds exactly what was put into it
                have hfull : bytes ++ data.take (canardBufferBlockDataSize - index) =
                    (fill block.data index data).1.toList := by
                  refine hbegins.eq_of_length ?_
                  rw [List.length_append, List.length_take, hlen, Vector.length_toList]
                  omega
                rw [← List.singleton_append, bytesOf_append, bytesOf_singleton, ← hfull]
                refine ⟨?_, ?_⟩
                · rw [List.append_assoc, List.prefix_append_right_inj]
                  nth_rewrite 1 [← List.take_append_drop (canardBufferBlockDataSize - index) data]
                  rw [List.prefix_append_right_inj]
                  exact hdata
                · rw [List.length_drop] at hsize
                  simp only [List.length_append, List.length_take, hlen]
                  omega
              · intro henough
                refine hroom ?_
                rw [hfree, List.length_cons] at henough
                rw [List.length_drop]
                simp only [canardBufferBlockDataSize, canardMemBlockSize, offsetOfData] at *
                omega

/-! ## The place of the next byte -/

theorem toNat_indexAtNthBlock : st.indexAtNthBlock.toNat =
    (UInt32.ofNat st.payloadLen.toNat - UInt32.ofNat canardMultiframeRxPayloadHeadSize).toNat %
      canardBufferBlockDataSize := by
  rw [indexAtNthBlock, UInt32.toNat_toUInt8, UInt32.toNat_mod]
  exact Nat.mod_eq_of_lt ((Nat.mod_lt _ (by decide)).trans (by decide : 28 < 2 ^ 8))

theorem eq_nil_of_currentBlock {n : Nat} (h : currentBlock garbage a st n = none) :
    a.freeList = [] := by
  rw [currentBlock] at h
  split at h
  · exact createBufferBlock_eq_none.mp (Option.map_eq_none_iff.mp h)
  · split at h
    · exact createBufferBlock_eq_none.mp (Option.map_eq_none_iff.mp h)
    · cases h

theorem currentBlock_of_nil {n : Nat} (hnil : st.bufferBlocks = [])
    (h : currentBlock garbage a st n = some (front, block, index, a')) :
    front = [] ∧ index = 0 := by
  rw [currentBlock, hnil] at h
  obtain ⟨⟨b, a₁⟩, -, heq⟩ := Option.map_eq_some_iff.mp h
  cases heq
  exact ⟨rfl, rfl⟩

/-- The chain goes on in its last block or at the beginning of a new one. -/
theorem currentBlock_spec {n : Nat}
    (h : currentBlock garbage a st n = some (front, block, index, a')) :
    index < canardBufferBlockDataSize ∧ ∃ new, (front ++ [block]).map CanardBufferBlock.block =
      st.payloadBlocks ++ new ∧ a.Takes new a' ∧
      (new = [] ∧ a'.freeList = a.freeList ∨ index = 0) := by
  rw [currentBlock] at h
  split at h
  · rename_i hnone
    obtain ⟨⟨b, a₁⟩, hcreate, heq⟩ := Option.map_eq_some_iff.mp h
    cases heq
    refine ⟨by decide, [block.block], ?_, (createBufferBlock_eq_some hcreate).1, Or.inr rfl⟩
    rw [payloadBlocks, List.getLast?_eq_none_iff.mp hnone]
    rfl
  · rename_i last hlast
    split at h
    · obtain ⟨⟨b, a₁⟩, hcreate, heq⟩ := Option.map_eq_some_iff.mp h
      cases heq
      exact ⟨by decide, [block.block], List.map_append, (createBufferBlock_eq_some hcreate).1,
        Or.inr rfl⟩
    · cases h
      refine ⟨?_, [], ?_, .refl, Or.inl ⟨rfl, rfl⟩⟩
      · rw [toNat_indexAtNthBlock]
        exact Nat.mod_lt _ (by decide)
      · rw [List.dropLast_append_getLast? _ hlast, List.append_nil]
        rfl

/-! ## Pushing -/

/-- Pushing always returns.  It changes nothing of the state but its payload,
which keeps its blocks and may get more of them, and it fails only if there is
no memory. -/
theorem bufferBlockPushBytes_spec (garbage : Garbage) (a : CanardPoolAllocator)
    (st : CanardRxState) (data : List UInt8) : ∃ a' st' result new,
    bufferBlockPushBytes garbage a st data = .ok (a', st', result) ∧
    st' = { st with
      bufferHead := st'.bufferHead
      bufferBlocks := st'.bufferBlocks
      payloadLen := st'.payloadLen } ∧
    st'.payloadBlocks = st.payloadBlocks ++ new ∧ a.Takes new a' ∧
    (result = 1 ∨ result = -canardErrorOutOfMemory) ∧
    (a.freeList ≠ [] → data.length ≤ canardBufferBlockDataSize → result = 1) := by
  rw [bufferBlockPushBytes]
  generalize hfill : fill st.bufferHead st.payloadLen.toNat data = filled
  obtain ⟨bufferHead, rest⟩ := filled
  have hrest : rest.length ≤ data.length := by
    have hsnd := fill_snd st.bufferHead st.payloadLen.toNat data
    rw [hfill] at hsnd
    rw [show rest = _ from hsnd, List.length_drop]
    omega
  dsimp only
  split
  · exact ⟨_, _, _, [], rfl, rfl, (List.append_nil _).symm, .refl, Or.inl rfl, fun _ _ => rfl⟩
  · split
    · rename_i hnone
      exact ⟨_, _, _, [], rfl, rfl, (List.append_nil _).symm, .refl, Or.inr rfl,
        fun hfree => absurd (eq_nil_of_currentBlock hnone) hfree⟩
    · rename_i front block index a₁ hsome
      obtain ⟨hindex, new, hmap, htakes, hnew⟩ := currentBlock_spec hsome
      obtain ⟨blocks, a₂, enough, new', hrun, hmap', htakes', -, hroom⟩ :=
        fillBlocks_spec garbage a₁ (Nat.lt_succ_self rest.length) hindex
          (List.take_prefix index block.data.toList)
          (by rw [List.length_take, Vector.length_toList]; omega)
      have hblocks : (front ++ blocks).map CanardBufferBlock.block =
          st.payloadBlocks ++ (new ++ new') := by
        rw [← List.append_assoc, ← hmap, List.map_append, List.map_append, hmap']
        simp
      have henough : a.freeList ≠ [] → data.length ≤ canardBufferBlockDataSize →
          enough = true := by
        intro hne hle
        refine hroom ?_
        rcases hnew with ⟨-, heq⟩ | rfl
        · have hpos : 0 < a₁.freeList.length := by
            rw [heq]
            exact List.length_pos_iff.mpr hne
          have hmul := Nat.mul_le_mul_left canardBufferBlockDataSize hpos
          rw [Nat.mul_add]
          omega
        · rw [Nat.mul_add]
          omega
      simp only [hrun, Call.ok_bind]
      cases enough with
      | true => exact ⟨_, _, _, new ++ new', rfl, rfl, hblocks, htakes.trans htakes', Or.inl rfl,
          fun _ _ => rfl⟩
      | false => exact ⟨_, _, _, new ++ new', rfl, rfl, hblocks, htakes.trans htakes', Or.inr rfl,
          fun hne hle => absurd (henough hne hle) Bool.false_ne_true⟩

/-- What fits into an empty head needs no memory. -/
theorem bufferBlockPushBytes_of_fits (garbage : Garbage) (a : CanardPoolAllocator)
    (hlen : st.payloadLen = 0)
    (hdata : data.length ≤ canardMultiframeRxPayloadHeadSize) :
    ∃ st', bufferBlockPushBytes garbage a st data = .ok (a, st', 1) := by
  have hrest : (fill st.bufferHead st.payloadLen.toNat data).2 = [] := by
    rw [fill_snd, List.drop_eq_nil_iff, hlen]
    exact hdata
  rw [bufferBlockPushBytes]
  generalize hfill : fill st.bufferHead st.payloadLen.toNat data = filled at hrest
  obtain ⟨bufferHead, rest⟩ := filled
  cases hrest
  dsimp only
  rw [if_pos ⟨by rw [hlen]; decide, rfl⟩]
  exact ⟨_, rfl⟩

/-! ## What is held -/

/-- All bytes a state has room for. -/
def storage (st : CanardRxState) : List UInt8 := st.bufferHead.toList ++ bytesOf st.bufferBlocks

/-- The state holds `bytes`. -/
structure Holds (st : CanardRxState) (bytes : List UInt8) : Prop where
  len : st.payloadLen.toNat = bytes.length
  isPrefix : bytes <+: st.storage
  room : st.storage.length ≤ bytes.length + canardBufferBlockDataSize

theorem length_storage : st.storage.length =
    canardMultiframeRxPayloadHeadSize + canardBufferBlockDataSize * st.bufferBlocks.length := by
  rw [storage, List.length_append, Vector.length_toList, length_bytesOf]

theorem holds_nil (hlen : st.payloadLen = 0) (hblocks : st.bufferBlocks = []) : Holds st [] where
  len := by rw [hlen]; rfl
  isPrefix := List.nil_prefix
  room := by
    rw [length_storage, hblocks]
    decide

/-- In a head that is not full there are all bytes. -/
theorem Holds.of_lt (h : Holds st bytes) (hlt : bytes.length < canardMultiframeRxPayloadHeadSize) :
    st.bufferBlocks = [] ∧ bytes <+: st.bufferHead.toList := by
  have hroom := h.room
  have hnil : st.bufferBlocks = [] := by
    rw [length_storage] at hroom
    simp only [canardMultiframeRxPayloadHeadSize, canardBufferBlockDataSize, canardMemBlockSize,
      offsetOfData, offsetOfBufferHead] at hroom hlt
    exact List.eq_nil_of_length_eq_zero (by omega)
  refine ⟨hnil, ?_⟩
  have hbegins := h.isPrefix
  rwa [storage, hnil, bytesOf, List.flatMap_nil, List.append_nil] at hbegins

/-- A difference that does not wrap around. -/
theorem toNat_ofNat_sub {x o : Nat} (hle : o ≤ x) (hlt : x < 2 ^ 32) :
    (UInt32.ofNat x - UInt32.ofNat o).toNat = x - o := by
  have hx : (UInt32.ofNat x).toNat = x := UInt32.toNat_ofNat_of_lt' hlt
  have ho : (UInt32.ofNat o).toNat = o := UInt32.toNat_ofNat_of_lt' (show o < 2 ^ 32 by omega)
  rw [UInt32.toNat_sub_of_le, hx, ho]
  rw [UInt32.le_iff_toNat_le, hx, ho]
  exact hle

/-- Behind a full head the place of the next byte is behind all that are
there. -/
theorem Holds.currentBlock {n : Nat} (h : Holds st bytes)
    (hge : canardMultiframeRxPayloadHeadSize ≤ bytes.length)
    (hlt : bytes.length + n < 2 ^ 10) (hn : n < canardBufferBlockDataSize)
    (hsome : currentBlock garbage a st n = some (front, block, index, a')) :
    ∃ cur, bytes = st.bufferHead.toList ++ bytesOf front ++ cur ∧ cur <+: block.data.toList ∧
      cur.length = index := by
  have hlen := h.len
  have hroom := h.room
  have hbegins := h.isPrefix
  have hle := hbegins.length_le
  rw [length_storage] at hroom hle
  rw [CanardRxState.currentBlock] at hsome
  split at hsome
  · rename_i hnone
    obtain ⟨⟨b, a₁⟩, -, heq⟩ := Option.map_eq_some_iff.mp hsome
    cases heq
    have hnil := List.getLast?_eq_none_iff.mp hnone
    rw [storage, hnil, bytesOf, List.flatMap_nil, List.append_nil] at hbegins
    rw [hnil, List.length_nil, Nat.mul_zero, Nat.add_zero] at hle
    refine ⟨[], ?_, List.nil_prefix, rfl⟩
    rw [bytesOf, List.flatMap_nil, List.append_nil, List.append_nil]
    refine hbegins.eq_of_length ?_
    rw [Vector.length_toList]
    omega
  · rename_i last hlast
    have hblocks := List.dropLast_append_getLast? _ hlast
    have hcount : st.bufferBlocks.length = st.bufferBlocks.dropLast.length + 1 := by
      nth_rewrite 1 [← hblocks]
      exact List.length_append
    have hindex : st.indexAtNthBlock.toNat = (bytes.length - 6) % 28 := by
      rw [toNat_indexAtNthBlock, hlen, toNat_ofNat_sub hge (by omega)]
      rfl
    have hnum : (st.numBufferBlocks n).toNat = (bytes.length + n - 6) / 28 + 1 := by
      rw [numBufferBlocks, UInt8.toNat_add, UInt32.toNat_toUInt8, UInt32.toNat_div, hlen,
        toNat_ofNat_sub (by omega) (by omega)]
      show ((bytes.length + n - 6) / 28 % 2 ^ 8 + 1) % 2 ^ 8 = _
      omega
    simp only [canardMultiframeRxPayloadHeadSize, canardBufferBlockDataSize, canardMemBlockSize,
      offsetOfData, offsetOfBufferHead] at hroom hle hge hn
    have hnth : (UInt8.ofNat st.bufferBlocks.length).toNat = st.bufferBlocks.length :=
      UInt8.toNat_ofNat_of_lt' (show st.bufferBlocks.length < 2 ^ 8 by omega)
    have hcond : st.numBufferBlocks n > UInt8.ofNat st.bufferBlocks.length ∧
        st.indexAtNthBlock = 0 ↔ bytes.length = 6 + 28 * st.bufferBlocks.length := by
      rw [gt_iff_lt, UInt8.lt_iff_toNat_lt, hnth, hnum, ← UInt8.toNat_inj, hindex]
      show _ ∧ _ = 0 ↔ _
      omega
    split at hsome
    · rename_i hfull
      obtain ⟨⟨b, a₁⟩, -, heq⟩ := Option.map_eq_some_iff.mp hsome
      cases heq
      refine ⟨[], ?_, List.nil_prefix, rfl⟩
      rw [List.append_nil]
      refine hbegins.eq_of_length ?_
      rw [length_storage]
      exact hcond.mp hfull
    · rename_i hnot
      cases hsome
      rw [hcond] at hnot
      have hfront : (st.bufferHead.toList ++ bytesOf st.bufferBlocks.dropLast).length =
          6 + 28 * st.bufferBlocks.dropLast.length := by
        rw [List.length_append, Vector.length_toList, length_bytesOf]
        rfl
      have hstorage : st.storage =
          st.bufferHead.toList ++ bytesOf st.bufferBlocks.dropLast ++ block.data.toList := by
        rw [storage, ← bytesOf_singleton, List.append_assoc, ← bytesOf_append, hblocks]
      rw [hstorage] at hbegins
      have htake := List.prefix_iff_eq_take.mp hbegins
      rw [List.take_append, List.take_of_length_le (by omega)] at htake
      refine ⟨_, htake, List.take_prefix _ _, ?_⟩
      rw [List.length_take, Vector.length_toList, hfront, hindex]
      show min _ 28 = _
      omega

/-- A push appends to what is held. -/
theorem Holds.push (h : Holds st bytes) (hdata : data.length < canardBufferBlockDataSize)
    (hlt : bytes.length + data.length < 2 ^ 10)
    (hok : bufferBlockPushBytes garbage a st data = .ok (a', st', 1)) :
    Holds st' (bytes ++ data) := by
  have hlen : (st.payloadLen + BitVec.ofNat 10 data.length).toNat =
      (bytes ++ data).length := by
    rw [BitVec.toNat_add, BitVec.toNat_ofNat, h.len, List.length_append]
    omega
  rw [bufferBlockPushBytes] at hok
  generalize hfill : fill st.bufferHead st.payloadLen.toNat data = filled at hok
  obtain ⟨bufferHead, rest⟩ := filled
  have hrest : rest = data.drop (canardMultiframeRxPayloadHeadSize - bytes.length) := by
    have hsnd := fill_snd st.bufferHead st.payloadLen.toNat data
    rw [hfill, h.len] at hsnd
    exact hsnd
  dsimp only at hok
  -- the head, as far as it is not full yet
  have hhead : bytes.length < canardMultiframeRxPayloadHeadSize →
      bytes ++ data.take (canardMultiframeRxPayloadHeadSize - bytes.length) <+:
        bufferHead.toList := by
    intro hroom
    have hbegins := prefix_fill data (h.of_lt hroom).2 rfl
    rw [← h.len, hfill, h.len] at hbegins
    exact hbegins
  split at hok
  · rename_i hall
    rw [h.len, List.isEmpty_iff, hrest, List.drop_eq_nil_iff] at hall
    obtain ⟨hroom, hfits⟩ := hall
    cases Call.pure_eq_ok.mp hok
    refine ⟨hlen, ?_, ?_⟩
    · have hbegins := hhead hroom
      rw [List.take_of_length_le hfits] at hbegins
      exact hbegins.trans (List.prefix_append _ _)
    · rw [length_storage]
      simp only [(h.of_lt hroom).1, List.length_nil, List.length_append]
      simp only [canardMultiframeRxPayloadHeadSize, canardBufferBlockDataSize, canardMemBlockSize,
        offsetOfData, offsetOfBufferHead]
      omega
  · rename_i hnot
    rw [h.len, List.isEmpty_iff, hrest, List.drop_eq_nil_iff] at hnot
    split at hok
    · cases Call.pure_eq_ok.mp hok
    · rename_i front block index a₁ hsome
      have hindex := (currentBlock_spec hsome).1
      have hplace : ∃ cur, bytes ++ data = bufferHead.toList ++ bytesOf front ++ cur ++ rest ∧
          cur <+: block.data.toList ∧ cur.length = index := by
        rcases Nat.lt_or_ge bytes.length canardMultiframeRxPayloadHeadSize with hroom | hfull
        · -- the head gets full, and the rest goes into a new block
          have hmore : canardMultiframeRxPayloadHeadSize - bytes.length < data.length := by omega
          obtain ⟨rfl, rfl⟩ := currentBlock_of_nil (h.of_lt hroom).1 hsome
          refine ⟨[], ?_, List.nil_prefix, rfl⟩
          have hfilled := (hhead hroom).eq_of_length (by
            rw [List.length_append, List.length_take, Vector.length_toList]
            omega)
          rw [hrest, ← hfilled, bytesOf, List.flatMap_nil, List.append_nil, List.append_nil,
            List.append_assoc, List.take_append_drop]
        · rw [fill_of_le (h.len ▸ hfull)] at hfill
          obtain ⟨cur, hbytes, hcur⟩ := h.currentBlock hfull hlt hdata hsome
          cases hfill
          exact ⟨cur, congrArg (· ++ data) hbytes, hcur⟩
      obtain ⟨cur, hplace, hcur, hcurlen⟩ := hplace
      obtain ⟨blocks, a₂, enough, new', hrun, -, -, hgood, -⟩ :=
        fillBlocks_spec garbage a₁ (Nat.lt_succ_self rest.length) hindex
          hcur hcurlen
      rw [hrun, Call.ok_bind] at hok
      cases enough with
      | false => cases Call.pure_eq_ok.mp hok
      | true =>
          obtain ⟨hbegins, hsize⟩ := hgood rfl
          cases Call.pure_eq_ok.mp hok
          refine ⟨hlen, ?_, ?_⟩
          · rw [storage, bytesOf_append, hplace, ← List.append_assoc, List.append_assoc _ cur,
              List.prefix_append_right_inj]
            exact hbegins
          · rw [storage, bytesOf_append, hplace]
            simp only [List.length_append]
            omega

end CanardRxState

end UavcanAdapter
