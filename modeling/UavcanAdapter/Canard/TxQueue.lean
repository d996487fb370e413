/-
# `Canard.TxQueue` — frames that wait for the bus

`isPriorityHigher` decides which of two frames goes first.  What it compares
is what the bus compares: on the wire the identifier and its flag bits are
sent before anything else, most significant bit first, and a dominant bit, a
zero, wins (`isPriorityHigher_iff`).

So the transmit queue is a priority queue that serves equals in turn, and the
frames of one transfer, which all have the same identifier, leave it in the
order in which they were made.
-/
import UavcanAdapter.Base.StableQueue
import UavcanAdapter.Canard.Allocator
import UavcanAdapter.Node.AcceptanceFilter

namespace UavcanAdapter

open Base

/-- `CANARD_CAN_EXT_ID_MASK`. -/
def canardCanExtIdMask : UInt32 := 0x1FFFFFFF

/-- `CANARD_CAN_STD_ID_MASK`. -/
def canardCanStdIdMask : UInt32 := 0x000007FF

/-- `isPriorityHigher`: the priority of `id` is higher than that of `rhs`. -/
def isPriorityHigher (rhs id : UInt32) : Bool :=
  let cleanId := id &&& canardCanExtIdMask
  let rhsCleanId := rhs &&& canardCanExtIdMask
  let ext := decide (id &&& canardCanFrameEff ≠ 0)
  let rhsExt := decide (rhs &&& canardCanFrameEff ≠ 0)
  if ext ≠ rhsExt then
    let arb11 := if ext then cleanId >>> 18 else cleanId
    let rhsArb11 := if rhsExt then rhsCleanId >>> 18 else rhsCleanId
    if arb11 ≠ rhsArb11 then decide (arb11 < rhsArb11) else rhsExt
  else
    let rtr := decide (id &&& canardCanFrameRtr ≠ 0)
    let rhsRtr := decide (rhs &&& canardCanFrameRtr ≠ 0)
    if cleanId = rhsCleanId ∧ rtr ≠ rhsRtr then rhsRtr
    else decide (cleanId < rhsCleanId)

/-! ## Arbitration -/

/-- A standard frame has eleven bits of identifier. -/
def ProperId (id : UInt32) : Prop :=
  id &&& canardCanFrameEff ≠ 0 ∨ (id &&& canardCanExtIdMask).toNat < 2 ^ 11

instance decProperId (id : UInt32) : Decidable (ProperId id) := inferInstanceAs (Decidable (_ ∨ _))

/-- The bits of a frame that take part in the arbitration, as the bus sends
them.  A standard frame: the identifier, RTR, a dominant IDE.  An extended
one: the upper part of the identifier, a recessive SRR, a recessive IDE, the
lower part, RTR. -/
def arbitrationField (id : UInt32) : Nat :=
  let cleanId := (id &&& canardCanExtIdMask).toNat
  let rtr := if id &&& canardCanFrameRtr ≠ 0 then 1 else 0
  if id &&& canardCanFrameEff ≠ 0 then
    cleanId / 2 ^ 18 * 2 ^ 21 + 3 * 2 ^ 19 + cleanId % 2 ^ 18 * 2 + rtr
  else cleanId * 2 ^ 21 + rtr * 2 ^ 20

section Arbitration

variable {rhs id : UInt32}

theorem clean_lt : (id &&& canardCanExtIdMask).toNat < 2 ^ 29 := by
  rw [UInt32.toNat_and, show canardCanExtIdMask.toNat = 2 ^ 29 - 1 from rfl,
    Nat.and_two_pow_sub_one_eq_mod]
  exact Nat.mod_lt _ (by decide)

theorem toNat_shiftRight_18 (x : UInt32) : (x >>> 18).toNat = x.toNat / 2 ^ 18 := by
  rw [UInt32.toNat_shiftRight, Nat.shiftRight_eq_div_pow]
  rfl

/-- The library compares frames as the bus does. -/
theorem isPriorityHigher_iff (hrhs : ProperId rhs) (hid : ProperId id) :
    isPriorityHigher rhs id = true ↔ arbitrationField id < arbitrationField rhs := by
  have hclean : (id &&& canardCanExtIdMask).toNat < 2 ^ 29 := clean_lt
  have hclean' : (rhs &&& canardCanExtIdMask).toNat < 2 ^ 29 := clean_lt
  have hstd : id &&& canardCanFrameEff ≠ 0 ∨ (id &&& canardCanExtIdMask).toNat < 2 ^ 11 := hid
  have hstd' : rhs &&& canardCanFrameEff ≠ 0 ∨ (rhs &&& canardCanExtIdMask).toNat < 2 ^ 11 := hrhs
  simp only [isPriorityHigher, arbitrationField]
  generalize id &&& canardCanExtIdMask = c at *
  generalize rhs &&& canardCanExtIdMask = c' at *
  have hinj : ∀ x y : UInt32, x = y ↔ x.toNat = y.toNat := fun _ _ => UInt32.toNat_inj.symm
  have hcc := hinj c c'
  have hccs := hinj c (c' >>> 18)
  have hcsc := hinj (c >>> 18) c'
  rw [toNat_shiftRight_18] at hccs hcsc
  -- the four flags make sixteen pairs of frames; the rest is arithmetic of two identifiers
  by_cases he : id &&& canardCanFrameEff = 0 <;> by_cases he' : rhs &&& canardCanFrameEff = 0 <;>
    by_cases hr : id &&& canardCanFrameRtr = 0 <;> by_cases hr' : rhs &&& canardCanFrameRtr = 0 <;>
    simp only [he, he', hr, hr', ne_eq, not_true_eq_false, not_false_eq_true, decide_true,
      decide_false, if_true, if_false, Bool.true_eq_false, Bool.false_eq_true, true_or, false_or,
      and_true, and_false, hcc, hccs, hcsc] at hstd hstd' ⊢ <;>
    (try split_ifs) <;>
    simp only [decide_eq_true_eq, UInt32.lt_iff_toNat_lt, toNat_shiftRight_18, true_iff,
      false_iff] <;>
    omega

end Arbitration

/-! ## The queue -/

/-- `CanardTxQueueItem`, and the block it lies in. -/
structure CanardTxQueueItem where
  block : Nat
  frame : CanardCANFrame

/-- `createTxItem`, and the frame that goes into it. -/
def createTxItem (a : CanardPoolAllocator) (frame : CanardCANFrame) :
    Option (CanardTxQueueItem × CanardPoolAllocator) :=
  a.allocateBlock.map fun (block, a) => ({ block, frame }, a)

/-- The loop of `pushTxQueue` behind a queue that is not empty. -/
def pushLoop (item : CanardTxQueueItem) : List CanardTxQueueItem → List CanardTxQueueItem
  | [] => [item]
  | queue :: next =>
      if isPriorityHigher queue.frame.id item.frame.id then item :: queue :: next
      else queue :: pushLoop item next

/-- `pushTxQueue`. -/
def pushTxQueue (txQueue : List CanardTxQueueItem) (item : CanardTxQueueItem) :
    Call (List CanardTxQueueItem) := do
  Call.assert (item.frame.data.length > 0)
  return pushLoop item txQueue

/-- What decides about the place of a frame in the queue. -/
def CanardCANFrame.key (frame : CanardCANFrame) : Nat := arbitrationField frame.id

namespace CanardTxQueueItem

variable {item : CanardTxQueueItem} {txQueue q : List CanardTxQueueItem}

/-- The loop keeps the frames in the order of arbitration. -/
theorem map_pushLoop (hitem : ProperId item.frame.id)
    (hq : ∀ f ∈ txQueue.map frame, ProperId f.id) :
    (pushLoop item txQueue).map frame =
      enqueue CanardCANFrame.key item.frame (txQueue.map frame) := by
  induction txQueue with
  | nil => rfl
  | cons x q ih =>
      obtain ⟨hx, hq⟩ := List.forall_mem_cons.mp hq
      have hiff := isPriorityHigher_iff hx hitem
      rw [pushLoop, enqueue, List.map_cons, List.orderedInsert_cons]
      by_cases h : isPriorityHigher x.frame.id item.frame.id = true
      · rw [if_pos h]
        exact (if_pos (hiff.mp h)).symm
      · rw [if_neg h, List.map_cons, ih hq]
        exact (if_neg fun hlt => h (hiff.mpr hlt)).symm

theorem perm_pushLoop : (pushLoop item txQueue).Perm (item :: txQueue) := by
  induction txQueue with
  | nil => exact List.Perm.refl _
  | cons x q ih =>
      rw [pushLoop]
      split
      · exact List.Perm.refl _
      · exact (ih.cons x).trans (List.Perm.swap item x q)

theorem pushTxQueue_eq_ok : pushTxQueue txQueue item = .ok q ↔
    0 < item.frame.data.length ∧ q = pushLoop item txQueue := by
  rw [pushTxQueue]
  by_cases h : item.frame.data.length > 0
  · rw [Call.assert_of_true h]
    exact ⟨fun hok => ⟨h, (Call.pure_eq_ok.mp hok).symm⟩, fun hok => by rw [hok.2]; rfl⟩
  · rw [Call.assert_of_false h]
    exact ⟨nofun, fun hok => absurd hok.1 h⟩

end CanardTxQueueItem

end UavcanAdapter
