/-
# `Driver.Mailboxes` — three mailboxes between the library and the bus

The CAN cell has three mailboxes for frames that are to be sent, and decides
itself which of them it sends next.  The driver takes a frame only if it goes
before all that are waiting, so no two frames with the same identifier wait
there at a time (`canardSTM32Transmit_cases`).  Together with the transmit
queue of the library this keeps the frames of a transfer in order, whatever the
bus does (`frames_served`).

The cell does not wait for the driver: while `canardSTM32Transmit` runs, and
reads four times which of the mailboxes are empty, frames are sent, or given up
because the driver has just asked for it (`Meanwhile`).

A frame that goes before three others finds no room.  The driver calls this an
inner priority inversion and stops the program (`transmit_returns_iff`).
-/
import UavcanAdapter.Base.Pool
import UavcanAdapter.Canard.Instance
import UavcanAdapter.Driver.Registers

namespace UavcanAdapter

open Base Base.BitSet

namespace CanardSTM32

/-- `CANARD_STM32_ERROR_UNSUPPORTED_FRAME_FORMAT`. -/
def errorUnsupportedFrameFormat : Int := 1003

/-- `CANARD_STM32_CAN_ESR_BOFF`. -/
def canEsrBoff : UInt32 := (1 : UInt32) <<< 2

/-- `CANARD_STM32_CAN_ESR_LEC_MASK`. -/
def canEsrLecMask : UInt32 := (7 : UInt32) <<< 4

/-- A mailbox that is pending; `abrq` says that it is to be given up. -/
structure TxMailbox extends Mailbox where
  abrq : Bool := false

/-- What the cell does by itself: the frame in a mailbox goes over the bus, or
is given up. -/
structure Departure where
  mailbox : Fin 3
  sent : Bool

/-- What the cell does during a call of `canardSTM32Transmit`: before `TSR` is
read for the first time, and then before it is read for each of the mailboxes. -/
structure Meanwhile where
  first : List Departure := []
  next : Fin 3 → List Departure := fun _ => []

/-- All of it until mailbox `i` is looked at. -/
def Meanwhile.upTo (m : Meanwhile) (i : Fin 3) : List Departure :=
  m.first ++ ((List.finRange 3).take (i.val + 1)).flatMap m.next

/-- All of it. -/
def Meanwhile.all (m : Meanwhile) : List Departure := m.first ++ (List.finRange 3).flatMap m.next

/-- The transmitter of the cell and the variables of the driver.  A mailbox that
is empty, the bit `TME` of which is set, is none.  `left` are the frames that
left the mailboxes, with whether they were sent. -/
structure BxCan where
  txMailbox : Fin 3 → Option TxMailbox := fun _ => none
  abortTxOnError : Bool := false
  errorCount : UInt64 := 0
  left : List (CanardCANFrame × Bool) := []

namespace BxCan

/-- `processErrorStatus`, which reads `esr`. -/
def processErrorStatus (s : BxCan) (esr : UInt32) : BxCan :=
  if (esr &&& canEsrLecMask) >>> 4 ≠ 0 then
    let s := { s with errorCount := s.errorCount + 1 }
    if s.abortTxOnError ∨ esr &&& canEsrBoff ≠ 0 then
      { s with txMailbox := fun i => (s.txMailbox i).map fun mb => { mb with abrq := true } }
    else s
  else s

/-- A mailbox becomes empty, if it is not. -/
def leave (s : BxCan) (x : Departure) : BxCan :=
  match s.txMailbox x.mailbox with
  | none => s
  | some mb =>
      { s with
        txMailbox := Function.update s.txMailbox x.mailbox none
        left := s.left ++ [(mb.toFrame, x.sent)] }

/-- Mailboxes become empty, one after the other. -/
def leaveAll (s : BxCan) (xs : List Departure) : BxCan := xs.foldl leave s

/-- The cell gives up only what it was asked to. -/
def Permits (s : BxCan) (x : Departure) : Bool :=
  x.sent || (s.txMailbox x.mailbox).any TxMailbox.abrq

/-- It does all of this. -/
def PermitsAll : BxCan → List Departure → Bool
  | _, [] => true
  | s, x :: xs => s.Permits x && PermitsAll (s.leave x) xs

/-- Mailbox `i` is looked at; none where it holds a frame that goes first. -/
def seekStep (txMailbox : Fin 3 → Option TxMailbox) (id : UInt32) (found : Option (Fin 3))
    (i : Fin 3) : Option (Option (Fin 3)) :=
  match txMailbox i with
  | none => some (some i)
  | some mb =>
      if isFramePriorityHigher id (convertFrameIDRegisterToCanard mb.ir) then some found else none

/-- The frame is written to mailbox `i`. -/
def write (s : BxCan) (i : Fin 3) (frame : CanardCANFrame) : BxCan :=
  { s with txMailbox := Function.update s.txMailbox i (some { Mailbox.ofFrame frame with }) }

/-- The mailboxes as the driver gets to see them, each when it is looked at. -/
def seen (s : BxCan) (m : Meanwhile) (i : Fin 3) : Option TxMailbox :=
  (s.leaveAll (m.upTo i)).txMailbox i

/-- `canardSTM32Transmit`: the result, and what it leaves behind. -/
def canardSTM32Transmit (s : BxCan) (esr : UInt32) (m : Meanwhile) (frame : CanardCANFrame) :
    Call (Int × BxCan) :=
  if frame.id &&& canardCanFrameErr ≠ 0 then .ok (-errorUnsupportedFrameFormat, s)
  else
    let s := s.processErrorStatus esr
    if ∀ i, ((s.leaveAll m.first).txMailbox i).isNone = true then
      .ok (1, (s.leaveAll m.first).write 0 frame)
    else
      -- a register keeps its identifier when the mailbox becomes empty
      match (List.finRange 3).foldlM (seekStep (s.seen m) frame.id) none with
      | none => .ok (0, s.leaveAll m.all)
      -- the mailboxes were all busy, with frames that the new one goes before
      | some none => .error .assertion
      | some (some i) => .ok (1, (s.leaveAll m.all).write i frame)

/-- `canardSTM32Receive`, with the mailboxes in front of the two FIFOs, none
where a FIFO is empty: the frame, and what it leaves behind. -/
def canardSTM32Receive (s : BxCan) (esr : UInt32) (rxMailbox : Fin 2 → Option Mailbox) :
    Option CanardCANFrame × BxCan :=
  (((List.finRange 2).findSome? rxMailbox).map Mailbox.toFrame, s.processErrorStatus esr)

/-- The frames in the mailboxes, as the bus gets to see them. -/
def pending (s : BxCan) : List CanardCANFrame :=
  (List.finRange 3).filterMap fun i => (s.txMailbox i).map fun mb => mb.toFrame

/-- Every mailbox is pending. -/
def Full (s : BxCan) : Prop := ∀ i, (s.txMailbox i).isSome = true

/-- The frame goes before all that are pending. -/
def GoesFirst (s : BxCan) (frame : CanardCANFrame) : Prop :=
  ∀ f ∈ s.pending, frame.key < f.key

instance decFull (s : BxCan) : Decidable s.Full := inferInstanceAs (Decidable (∀ _, _))

instance decGoesFirst (s : BxCan) (frame : CanardCANFrame) : Decidable (s.GoesFirst frame) :=
  inferInstanceAs (Decidable (∀ f ∈ s.pending, frame.key < f.key))

/-- Inner priority inversion: three frames wait, none of them leaves before the
driver has looked at it, and the new one goes before them all. -/
def Inversion (s : BxCan) (m : Meanwhile) (frame : CanardCANFrame) : Prop :=
  s.GoesFirst frame ∧ s.Full ∧ ∀ i, ∀ x ∈ m.upTo i, x.mailbox ≠ i

section Mailboxes

variable {s : BxCan} {esr : UInt32} {frame : CanardCANFrame} {i : Fin 3} {mb : TxMailbox}
  {x : Departure} {xs ys : List Departure} {m : Meanwhile}

/-! ## What happens to a mailbox -/

theorem pending_processErrorStatus : (s.processErrorStatus esr).pending = s.pending := by
  rw [processErrorStatus]
  split
  · dsimp only
    split
    · simp only [pending, Option.map_map]
      rfl
    · rfl
  · rfl

theorem left_processErrorStatus : (s.processErrorStatus esr).left = s.left := by
  rw [processErrorStatus]
  split
  · dsimp only
    split <;> rfl
  · rfl

theorem isSome_processErrorStatus :
    ((s.processErrorStatus esr).txMailbox i).isSome = (s.txMailbox i).isSome := by
  rw [processErrorStatus]
  split
  · dsimp only
    split
    · exact Option.isSome_map ..
    · rfl
  · rfl

theorem mem_pending {f : CanardCANFrame} :
    f ∈ s.pending ↔ ∃ i mb, s.txMailbox i = some mb ∧ mb.toFrame = f := by
  simp [pending]

theorem txMailbox_write : (s.write i frame).txMailbox =
    Function.update s.txMailbox i (some { Mailbox.ofFrame frame with }) := rfl

theorem txMailbox_leave :
    (s.leave x).txMailbox = Function.update s.txMailbox x.mailbox none := by
  rw [leave]
  cases hx : s.txMailbox x.mailbox with
  | none =>
      dsimp only
      rw [← hx, Function.update_eq_self]
  | some mb => rfl

theorem leaveAll_cons : s.leaveAll (x :: xs) = (s.leave x).leaveAll xs := rfl

/-- A mailbox holds what it held, or nothing. -/
theorem txMailbox_leaveAll : ∀ (xs : List Departure) (s : BxCan),
    (s.leaveAll xs).txMailbox i =
      if i ∈ xs.map Departure.mailbox then none else s.txMailbox i
  | [], s => by
      rw [List.map_nil, if_neg List.not_mem_nil]
      rfl
  | x :: xs, s => by
      rw [leaveAll_cons, txMailbox_leaveAll xs, txMailbox_leave, List.map_cons]
      by_cases hx : i = x.mailbox
      · rw [hx, Function.update_self, if_pos List.mem_cons_self, ite_self]
      · simp only [List.mem_cons, hx, false_or, Function.update_of_ne hx]

theorem leaveAll_append : s.leaveAll (xs ++ ys) = (s.leaveAll xs).leaveAll ys :=
  List.foldl_append

theorem leaveAll_of_empty (h : ∀ i, s.txMailbox i = none) :
    ∀ xs : List Departure, s.leaveAll xs = s
  | [] => rfl
  | x :: xs => by
      have hx : s.leave x = s := by rw [leave, h x.mailbox]
      rw [leaveAll_cons, hx, leaveAll_of_empty h xs]

/-! ## What the driver gets to see -/

theorem upTo_subset : m.upTo i ⊆ m.all := by
  intro x hx
  rw [Meanwhile.upTo, List.mem_append, List.mem_flatMap] at hx
  rw [Meanwhile.all, List.mem_append, List.mem_flatMap]
  exact hx.imp_right fun ⟨j, hj, hxj⟩ => ⟨j, List.mem_of_mem_take hj, hxj⟩

theorem seen_eq_some (h : s.seen m i = some mb) : s.txMailbox i = some mb := by
  rw [seen, txMailbox_leaveAll] at h
  split at h
  · cases h
  · exact h

/-- A mailbox that was seen to be empty is empty in the end. -/
theorem txMailbox_of_seen (h : s.seen m i = none) : (s.leaveAll m.all).txMailbox i = none := by
  rw [seen, txMailbox_leaveAll] at h
  rw [txMailbox_leaveAll]
  split at h
  · rename_i hgone
    exact if_pos (List.map_subset _ upTo_subset hgone)
  · rw [h, ite_self]

/-- The driver sees three frames iff there are three and none leaves too early. -/
theorem isSome_seen_iff : (∀ i, (s.seen m i).isSome = true) ↔
    s.Full ∧ ∀ i, ∀ x ∈ m.upTo i, x.mailbox ≠ i := by
  have heach : ∀ i, (s.seen m i).isSome = true ↔
      (s.txMailbox i).isSome = true ∧ ∀ x ∈ m.upTo i, x.mailbox ≠ i := by
    intro i
    rw [seen, txMailbox_leaveAll]
    by_cases hgone : i ∈ (m.upTo i).map Departure.mailbox
    · obtain ⟨x, hx, hxi⟩ := List.mem_map.mp hgone
      rw [if_pos hgone]
      exact iff_of_false Bool.false_ne_true fun h => h.2 x hx hxi
    · rw [if_neg hgone]
      exact ⟨fun h => ⟨h, fun x hx hxi => hgone (List.mem_map.mpr ⟨x, hx, hxi⟩)⟩, And.left⟩
  rw [forall_congr' heach, forall_and]
  rfl

theorem inversion_processErrorStatus (esr : UInt32) :
    (s.processErrorStatus esr).Inversion m frame ↔ s.Inversion m frame := by
  rw [Inversion, Inversion, GoesFirst, GoesFirst, Full, Full, pending_processErrorStatus]
  simp only [isSome_processErrorStatus]

/-! ## Looking for a mailbox -/

/-- The identifier in a register is a proper one. -/
theorem properId_toCanard (r : UInt32) : ProperId (convertFrameIDRegisterToCanard r) := by
  by_cases he : Holds r 2
  · exact Or.inl (holds_eff.mpr ((holds_toCanard_ext he).mpr (Or.inl (Or.inr rfl))))
  · refine Or.inr (Nat.lt_pow_two_of_testBit _ fun i hi => ?_)
    by_contra hbit
    have hholds : Holds (convertFrameIDRegisterToCanard r &&& canardCanExtIdMask) i :=
      Bool.eq_true_of_not_eq_false hbit
    rw [holds_and, holds_extIdMask, holds_toCanard_std he] at hholds
    omega

theorem isFramePriorityHigher_iff (hid : ProperId frame.id) :
    isFramePriorityHigher frame.id (convertFrameIDRegisterToCanard mb.ir) = true ↔
      frame.key < mb.toFrame.key := by
  rw [isFramePriorityHigher_eq]
  exact isPriorityHigher_iff (properId_toCanard mb.ir) hid

variable {boxes : Fin 3 → Option TxMailbox}

/-- The walk over the mailboxes ends at one that holds a frame that goes first. -/
theorem exists_of_seek_eq_none (hid : ProperId frame.id) {is : List (Fin 3)} :
    ∀ {found : Option (Fin 3)}, is.foldlM (seekStep boxes frame.id) found = none →
      ∃ i ∈ is, ∃ mb, boxes i = some mb ∧ mb.toFrame.key ≤ frame.key := by
  induction is with
  | nil =>
      intro found h
      cases h
  | cons i is ih =>
      intro found h
      rw [List.foldlM_cons, seekStep] at h
      cases hi : boxes i with
      | none =>
          rw [hi] at h
          obtain ⟨j, hj, hrest⟩ := ih h
          exact ⟨j, List.mem_cons_of_mem _ hj, hrest⟩
      | some mb =>
          rw [hi] at h
          by_cases hhigher :
              isFramePriorityHigher frame.id (convertFrameIDRegisterToCanard mb.ir) = true
          · dsimp only at h
            rw [if_pos hhigher] at h
            obtain ⟨j, hj, hrest⟩ := ih h
            exact ⟨j, List.mem_cons_of_mem _ hj, hrest⟩
          · rw [isFramePriorityHigher_iff hid, not_lt] at hhigher
            exact ⟨i, List.mem_cons_self, mb, hi, hhigher⟩

/-- A walk that comes to its end has found the last empty mailbox, if there is
one, and the frame goes before all that are pending. -/
theorem seek_eq_some (hid : ProperId frame.id) {is : List (Fin 3)} {found' : Option (Fin 3)} :
    ∀ {found : Option (Fin 3)}, is.foldlM (seekStep boxes frame.id) found = some found' →
      (∀ i ∈ is, ∀ mb, boxes i = some mb → frame.key < mb.toFrame.key) ∧
      ((found' = found ∧ ∀ i ∈ is, (boxes i).isSome = true) ∨
        ∃ i ∈ is, found' = some i ∧ boxes i = none) := by
  induction is with
  | nil =>
      intro found h
      rw [List.foldlM_nil] at h
      cases h
      exact ⟨by simp, Or.inl ⟨rfl, by simp⟩⟩
  | cons i is ih =>
      intro found h
      rw [List.foldlM_cons, seekStep] at h
      cases hi : boxes i with
      | none =>
          rw [hi] at h
          obtain ⟨hall, hfound⟩ := ih h
          refine ⟨List.forall_mem_cons.mpr ⟨fun mb hmb => ?_, hall⟩, Or.inr ?_⟩
          · cases hi.symm.trans hmb
          · rcases hfound with ⟨hsame, -⟩ | ⟨j, hj, hrest⟩
            · exact ⟨i, List.mem_cons_self, hsame, hi⟩
            · exact ⟨j, List.mem_cons_of_mem _ hj, hrest⟩
      | some mb =>
          rw [hi] at h
          dsimp only at h
          by_cases hhigher :
              isFramePriorityHigher frame.id (convertFrameIDRegisterToCanard mb.ir) = true
          · rw [if_pos hhigher] at h
            obtain ⟨hall, hfound⟩ := ih h
            refine ⟨List.forall_mem_cons.mpr ⟨fun mb' hmb => ?_, hall⟩, ?_⟩
            · cases hi.symm.trans hmb
              exact (isFramePriorityHigher_iff hid).mp hhigher
            · rcases hfound with ⟨hsame, hbusy⟩ | ⟨j, hj, hrest⟩
              · exact Or.inl ⟨hsame,
                  List.forall_mem_cons.mpr ⟨Option.isSome_of_eq_some hi, hbusy⟩⟩
              · exact Or.inr ⟨j, List.mem_cons_of_mem _ hj, hrest⟩
          · rw [if_neg hhigher] at h
            cases h

/-- A frame is refused while another one that goes first is pending, stops the
program where it finds no room, and is written to an empty mailbox otherwise. -/
theorem canardSTM32Transmit_cases (s : BxCan) (esr : UInt32) (m : Meanwhile)
    (hid : ProperId frame.id) (herr : frame.id &&& canardCanFrameErr = 0) :
    (¬s.Inversion m frame ∧
        s.canardSTM32Transmit esr m frame = .ok (0, (s.processErrorStatus esr).leaveAll m.all)) ∨
      (s.Inversion m frame ∧ s.canardSTM32Transmit esr m frame = .error .assertion) ∨
      (¬s.Inversion m frame ∧ ((s.processErrorStatus esr).leaveAll m.all).GoesFirst frame ∧
        ∃ i, ((s.processErrorStatus esr).leaveAll m.all).txMailbox i = none ∧
          s.canardSTM32Transmit esr m frame =
            .ok (1, ((s.processErrorStatus esr).leaveAll m.all).write i frame)) := by
  rw [canardSTM32Transmit, if_neg (not_not.mpr herr), ← inversion_processErrorStatus esr]
  dsimp only
  generalize s.processErrorStatus esr = s
  by_cases hempty : ∀ i, ((s.leaveAll m.first).txMailbox i).isNone = true
  · have hnone : ∀ i, (s.leaveAll m.first).txMailbox i = none :=
      fun i => Option.isNone_iff_eq_none.mp (hempty i)
    have hall : s.leaveAll m.all = s.leaveAll m.first := by
      rw [Meanwhile.all, leaveAll_append, leaveAll_of_empty hnone]
    rw [if_pos hempty, hall]
    refine Or.inr (Or.inr ⟨fun hinv => ?_, fun f hf => ?_, 0, hnone 0, rfl⟩)
    · -- what is seen after the first reading is empty as well
      have hseen := isSome_seen_iff.mpr hinv.2 0
      rw [seen, Meanwhile.upTo, leaveAll_append, leaveAll_of_empty hnone, hnone] at hseen
      cases hseen
    · obtain ⟨i, mb, hmb, -⟩ := mem_pending.mp hf
      cases (hnone i).symm.trans hmb
  · rw [if_neg hempty]
    cases hseek : (List.finRange 3).foldlM (seekStep (s.seen m) frame.id) none with
    | none =>
        obtain ⟨i, -, mb, hmb, hle⟩ := exists_of_seek_eq_none hid hseek
        refine Or.inl ⟨fun hinv => ?_, rfl⟩
        exact absurd (hinv.1 _ (mem_pending.mpr ⟨i, mb, seen_eq_some hmb, rfl⟩)) (not_lt.mpr hle)
    | some found =>
        obtain ⟨hfirst, hfound⟩ := seek_eq_some hid hseek
        rcases hfound with ⟨rfl, hbusy⟩ | ⟨i, -, rfl, hnone⟩
        · have hfull := isSome_seen_iff.mp fun i => hbusy i (List.mem_finRange i)
          refine Or.inr (Or.inl ⟨⟨fun f hf => ?_, hfull⟩, rfl⟩)
          obtain ⟨i, mb, hmb, rfl⟩ := mem_pending.mp hf
          obtain ⟨mb', hmb'⟩ := Option.isSome_iff_exists.mp (hbusy i (List.mem_finRange i))
          cases (seen_eq_some hmb').symm.trans hmb
          exact hfirst i (List.mem_finRange i) mb hmb'
        · refine Or.inr (Or.inr ⟨fun hinv => ?_, fun f hf => ?_, i, txMailbox_of_seen hnone, rfl⟩)
          · have hi := isSome_seen_iff.mpr hinv.2 i
            rw [hnone] at hi
            cases hi
          · obtain ⟨j, mb, hmb, rfl⟩ := mem_pending.mp hf
            cases hj : s.seen m j with
            | none => cases (txMailbox_of_seen hj).symm.trans hmb
            | some mb' =>
                rw [txMailbox_leaveAll] at hmb
                split at hmb
                · cases hmb
                · cases (seen_eq_some hj).symm.trans hmb
                  exact hfirst j (List.mem_finRange j) mb hj

/-- What the driver and the cell do in the meantime: nothing, or the errors are
read, frames leave, and one mailbox is written at most. -/
theorem cell_of_transmit {r : Int × BxCan} (h : s.canardSTM32Transmit esr m frame = .ok r) :
    r.2 = s ∨ r.2 = (s.processErrorStatus esr).leaveAll m.all ∨
      ∃ i, r.2 = ((s.processErrorStatus esr).leaveAll m.all).write i frame := by
  rw [canardSTM32Transmit] at h
  split at h
  · cases h
    exact Or.inl rfl
  dsimp only at h
  split at h
  · rename_i hempty
    cases h
    refine Or.inr (Or.inr ⟨0, ?_⟩)
    rw [Meanwhile.all, leaveAll_append,
      leaveAll_of_empty fun i => Option.isNone_iff_eq_none.mp (hempty i)]
  · split at h
    · cases h
      exact Or.inr (Or.inl rfl)
    · cases h
    · cases h
      exact Or.inr (Or.inr ⟨_, rfl⟩)

/-! ## Nothing is lost or doubled in the mailboxes -/

theorem pending_leave (h : s.txMailbox x.mailbox = some mb) :
    s.pending.Perm (mb.toFrame :: (s.leave x).pending) := by
  let g : Fin 3 → Option CanardCANFrame := fun j => (s.txMailbox j).map fun mb => mb.toFrame
  have hx : g x.mailbox = some mb.toFrame := congrArg (Option.map fun mb => mb.toFrame) h
  have hupdate : (fun j => ((s.leave x).txMailbox j).map fun mb => mb.toFrame) =
      Function.update g x.mailbox none := by
    funext j
    rw [txMailbox_leave]
    by_cases hj : j = x.mailbox
    · rw [hj, Function.update_self, Function.update_self]
      rfl
    · rw [Function.update_of_ne hj, Function.update_of_ne hj]
  have hperm := perm_filterMap_update hx (List.nodup_finRange 3) (List.mem_finRange x.mailbox)
  rw [← hupdate] at hperm
  exact hperm

theorem pending_write (h : s.txMailbox i = none) (hid : ProperId frame.id)
    (herr : frame.id &&& canardCanFrameErr = 0) :
    (s.write i frame).pending.Perm (frame :: s.pending) := by
  have hback : ((s.write i frame).leave ⟨i, true⟩).pending = s.pending := by
    rw [pending, pending, txMailbox_leave, txMailbox_write, Function.update_idem, ← h,
      Function.update_eq_self]
  have hself : (s.write i frame).txMailbox i = some { Mailbox.ofFrame frame with } :=
    Function.update_self i _ s.txMailbox
  have hperm := pending_leave (x := ⟨i, true⟩) hself
  rw [hback, toFrame_ofFrame hid herr] at hperm
  exact hperm

/-- The mailboxes hold what was taken off the queue and did not leave. -/
def Carries (s : BxCan) (popped : List CanardCANFrame) : Prop :=
  Pooled CanardCANFrame.key popped (s.left.map Prod.fst) s.pending

variable {popped : List CanardCANFrame}

theorem Carries.processErrorStatus (h : s.Carries popped) :
    (s.processErrorStatus esr).Carries popped := by
  rw [Carries, left_processErrorStatus, pending_processErrorStatus]
  exact h

theorem Carries.leave (h : s.Carries popped) : (s.leave x).Carries popped := by
  cases hx : s.txMailbox x.mailbox with
  | none =>
      rw [BxCan.leave, hx]
      exact h
  | some mb =>
      have hleft : (s.leave x).left = s.left ++ [(mb.toFrame, x.sent)] := by rw [BxCan.leave, hx]
      rw [Carries, hleft, List.map_append]
      exact h.take (pending_leave hx)

theorem Carries.leaveAll : ∀ {xs : List Departure} {s : BxCan}, s.Carries popped →
    (s.leaveAll xs).Carries popped
  | [], _, h => h
  | x :: xs, s, h => by
      rw [leaveAll_cons]
      exact Carries.leaveAll h.leave

theorem Carries.write (h : s.Carries popped) (hi : s.txMailbox i = none)
    (hid : ProperId frame.id) (herr : frame.id &&& canardCanFrameErr = 0)
    (hfirst : s.GoesFirst frame) : (s.write i frame).Carries (popped ++ [frame]) :=
  Pooled.put h (pending_write hi hid herr) fun f hf => (hfirst f hf).ne'

/-! ## Without bus errors -/

/-- No mailbox is to be given up, and no frame was. -/
structure Unaborted (s : BxCan) : Prop where
  pending : ∀ i mb, s.txMailbox i = some mb → mb.abrq = false
  sent : ∀ p ∈ s.left, p.2 = true

theorem Unaborted.write (h : s.Unaborted) : (s.write i frame).Unaborted := by
  refine ⟨fun j mb hmb => ?_, h.sent⟩
  rw [txMailbox_write] at hmb
  by_cases hj : j = i
  · rw [hj, Function.update_self] at hmb
    cases hmb
    rfl
  · rw [Function.update_of_ne hj] at hmb
    exact h.pending j mb hmb

/-- What leaves is sent, as the driver did not ask for anything else. -/
theorem Unaborted.leave (h : s.Unaborted) (hx : s.Permits x = true) : (s.leave x).Unaborted := by
  constructor
  case pending =>
      intro j mb hmb
      rw [txMailbox_leave] at hmb
      by_cases hj : j = x.mailbox
      · rw [hj, Function.update_self] at hmb
        cases hmb
      · rw [Function.update_of_ne hj] at hmb
        exact h.pending j mb hmb
  case sent =>
      intro p hp
      rw [BxCan.leave] at hp
      rw [Permits] at hx
      cases hmb : s.txMailbox x.mailbox with
      | none =>
          rw [hmb] at hp
          exact h.sent p hp
      | some mb =>
          rw [hmb] at hp hx
          rw [Option.any_some, h.pending _ mb hmb, Bool.or_false] at hx
          rcases List.mem_append.mp hp with hold | hnew
          · exact h.sent p hold
          · rw [List.mem_singleton.mp hnew]
            exact hx

theorem Unaborted.leaveAll : ∀ {xs : List Departure} {s : BxCan}, s.Unaborted →
    s.PermitsAll xs = true → (s.leaveAll xs).Unaborted
  | [], _, h, _ => h
  | x :: xs, s, h, hxs => by
      rw [PermitsAll, Bool.and_eq_true] at hxs
      rw [leaveAll_cons]
      exact Unaborted.leaveAll (h.leave hxs.1) hxs.2

theorem processErrorStatus_quiet (h : (esr &&& canEsrLecMask) >>> 4 = 0) :
    s.processErrorStatus esr = s := by
  rw [processErrorStatus, if_neg (not_not.mpr h)]

theorem Unaborted.transmit (h : s.Unaborted) (hquiet : (esr &&& canEsrLecMask) >>> 4 = 0)
    (hm : (s.processErrorStatus esr).PermitsAll m.all = true) {r : Int × BxCan}
    (hr : s.canardSTM32Transmit esr m frame = .ok r) : r.2.Unaborted := by
  have hcell := cell_of_transmit hr
  rw [processErrorStatus_quiet hquiet] at hcell hm
  rcases hcell with hcell | hcell | ⟨i, hcell⟩
  · rw [hcell]
    exact h
  · rw [hcell]
    exact h.leaveAll hm
  · rw [hcell]
    exact (h.leaveAll hm).write

end Mailboxes

end BxCan

end CanardSTM32

end UavcanAdapter
