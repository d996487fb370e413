/-
# `Driver.Sender` — from the transmit queue through the mailboxes to the bus

The node hands the frame in front of the transmit queue to the driver and takes
it off the queue if the driver does not refuse it.  The bus empties the
mailboxes in whatever order and at whatever time it likes, and the cell gives
frames up that the driver asked it to, which it does when it reads a bus error
while it transmits or receives.

All the same nothing is lost or doubled on the way and the frames of one
identifier leave in the order in which the library made them
(`frames_served`).  The driver stops the program iff three frames wait, none of
them leaves before it has looked at it, and the next one goes before all of them
(`transmit_returns_iff`).
-/
import UavcanAdapter.Driver.Mailboxes

namespace UavcanAdapter

open Base Base.BitSet

open CanardSTM32

/-- The library and the CAN cell. -/
structure Sender where
  lib : Library
  cell : BxCan := {}

/-- What happens at a sender. -/
inductive SenderInput
  | library (input : LibraryInput)
  /-- a pass of the transmit loop of `poll`, in which the driver reads `esr` -/
  | transmit (esr : UInt32) (m : Meanwhile)
  /-- a pass of the receive loop of `poll`, in which the driver reads `esr` and
  finds these mailboxes in front of the FIFOs -/
  | receive (esr : UInt32) (rxMailbox : Fin 2 → Option Mailbox) (garbage : Garbage)
      (shouldAccept : Offer → Option UInt64) (timestampUsec : UInt64)
  /-- a frame leaves its mailbox -/
  | departs (x : Departure)

namespace Sender

/-- The frames that left the mailboxes, with whether they were sent. -/
def left (s : Sender) : List (CanardCANFrame × Bool) := s.cell.left

/-- The body of the transmit loop of `poll`. -/
def transmit (s : Sender) (esr : UInt32) (m : Meanwhile) : Call Sender :=
  match s.lib.ins.canardPeekTxQueue with
  | none => .ok s
  | some frame => do
      let (res, cell) ← s.cell.canardSTM32Transmit esr m frame
      if res = 0 then return { s with cell }
      else
        let lib ← s.lib.step .pop
        return { lib, cell }

/-- The body of the receive loop of `poll`. -/
def receive (s : Sender) (esr : UInt32) (rxMailbox : Fin 2 → Option Mailbox) (garbage : Garbage)
    (shouldAccept : Offer → Option UInt64) (timestampUsec : UInt64) : Call Sender :=
  match s.cell.canardSTM32Receive esr rxMailbox with
  | (none, cell) => .ok { s with cell }
  | (some frame, cell) => do
      let lib ← s.lib.step (.frame garbage shouldAccept frame timestampUsec)
      return { lib, cell }

/-- One input. -/
def step (s : Sender) : SenderInput → Call Sender
  | .library input => do
      let lib ← s.lib.step input
      return { s with lib }
  | .transmit esr m => s.transmit esr m
  | .receive esr rxMailbox garbage shouldAccept timestampUsec =>
      s.receive esr rxMailbox garbage shouldAccept timestampUsec
  | .departs x => .ok { s with cell := s.cell.leave x }

/-- Only the transmit loop takes frames off the queue, the cell gives up only
what it was asked to, and nothing is received inside `on_reception`. -/
def Allowed (s : Sender) : SenderInput → Bool
  | .library .pop => false
  | .library input => s.lib.Allowed input
  | .transmit esr m => (s.cell.processErrorStatus esr).PermitsAll m.all
  | .receive .. => s.lib.inFlight.isNone
  | .departs x => s.cell.Permits x

end Sender

/-- A sender from its start on. -/
def sender : Machine Sender SenderInput :=
  (Machine.ofFunction
    (fun s => ∃ memArenaSize abortTxOnError,
      s = { lib := { ins := canardInit memArenaSize }, cell := { abortTxOnError } })
    Sender.step).restrict fun s input _ => s.Allowed input

/-! ## What the library puts on the queue -/

section Frames

variable {s s' : Library} {input : LibraryInput} {t : TxTransfer} {frame : CanardCANFrame}

/-- An extended data frame. -/
def CanardCANFrame.Plain (frame : CanardCANFrame) : Prop :=
  ProperId frame.id ∧ frame.id &&& canardCanFrameErr = 0

theorem plain_of_frames (hplain : t.Plain) (h : frame ∈ t.frames) : frame.Plain := by
  have heff : ∀ i, Holds canardCanFrameEff i ↔ i = 31 := fun i => holds_single (n := 31) (by decide)
  rw [CanardCANFrame.Plain, (forall_frames h).1]
  constructor
  · exact Or.inl (holds_eff.mpr (holds_or.mpr (Or.inr ((heff 31).mpr rfl))))
  · refine (and_single_eq_zero_iff (n := 29) (by decide)).mpr fun hbit => ?_
    rw [holds_or, heff] at hbit
    exact hbit.elim (not_holds_of_lt hplain (le_refl 29)) (by decide)

theorem plain_of_sends {nodeId : UInt8} (h : input.sends nodeId = .ok t) : t.Plain := by
  cases input with
  | broadcast => exact plain_of_composeBroadcast h
  | requestOrRespond => exact plain_of_composeService h
  | _ => cases h

theorem plain_of_framesOf (h : frame ∈ s.framesOf input) : frame.Plain := by
  rw [Library.framesOf] at h
  cases hsends : input.sends s.ins.nodeId with
  | error e =>
      rw [hsends] at h
      cases h
  | ok t =>
      rw [hsends] at h
      exact plain_of_frames (plain_of_sends hsends) (List.mem_of_mem_take h)

/-- What an input puts on the queue, and that it takes nothing off it. -/
theorem history_of_step (hpop : input ≠ .pop) (hok : s.step input = .ok s') :
    s'.enqueued = s.enqueued ++ s.framesOf input ∧ s'.popped = s.popped := by
  cases input with
  | release | finish =>
      rw [Library.step] at hok
      cases hflight : s.inFlight with
      | none =>
          rw [hflight] at hok
          cases hok
          exact ⟨(List.append_nil _).symm, rfl⟩
      | some r =>
          rw [hflight] at hok
          obtain ⟨x, -, hok⟩ := Call.bind_eq_ok.mp hok
          cases Call.pure_eq_ok.mp hok
          exact ⟨(List.append_nil _).symm, rfl⟩
  | frame | cleanup | setLocalNodeId =>
      obtain ⟨x, -, hok⟩ := Call.bind_eq_ok.mp hok
      cases Call.pure_eq_ok.mp hok
      exact ⟨(List.append_nil _).symm, rfl⟩
  | broadcast | requestOrRespond =>
      obtain ⟨x, -, hok⟩ := Call.bind_eq_ok.mp hok
      cases Call.pure_eq_ok.mp hok
      exact ⟨rfl, rfl⟩
  | pop => exact absurd rfl hpop

end Frames

namespace Sender

/-! ## The invariant -/

/-- The library is in a state it can be brought to, its frames are plain, and
the mailboxes hold what was taken off the queue and did not leave. -/
structure Inv (s : Sender) : Prop where
  reachable : library.Reachable s.lib
  plain : ∀ frame ∈ s.lib.enqueued, frame.Plain
  carries : s.cell.Carries s.lib.popped

section Steps

variable {s s' : Sender} {esr : UInt32} {m : Meanwhile} {frame : CanardCANFrame}

theorem Inv.ofLibrary {input : LibraryInput} (h : Inv s) (hpop : input ≠ .pop)
    (ha : s.lib.Allowed input) {lib : Library} (hok : s.lib.step input = .ok lib) :
    Inv { s with lib } := by
  obtain ⟨henqueued, hpopped⟩ := history_of_step hpop hok
  refine ⟨h.reachable.step ⟨hok, ha⟩, fun frame hframe => ?_, ?_⟩
  · rw [henqueued] at hframe
    rcases List.mem_append.mp hframe with hold | hnew
    · exact h.plain frame hold
    · exact plain_of_framesOf hnew
  · rw [hpopped]
    exact h.carries

theorem Inv.ofCell (h : Inv s) {cell : BxCan} (hcell : cell.Carries s.lib.popped) :
    Inv { s with cell } := ⟨h.reachable, h.plain, hcell⟩

/-- The frame in front of the queue is one of those that were put on it. -/
theorem Inv.plain_of_peek (h : Inv s) (hpeek : s.lib.ins.canardPeekTxQueue = some frame) :
    frame.Plain := by
  obtain ⟨item, hitem, rfl⟩ := Option.map_eq_some_iff.mp hpeek
  have hmem : item.frame ∈ s.lib.ins.txQueue.map CanardTxQueueItem.frame :=
    List.mem_map_of_mem (List.mem_of_mem_head? hitem)
  have hserved := (Library.sound_of_reachable h.reachable).served
  exact h.plain _ (hserved.perm.subset (List.mem_append_right _ hmem))

/-- The driver stops the program, or refuses or takes the frame. -/
theorem Inv.transmit_cases (h : Inv s) (esr : UInt32) (m : Meanwhile)
    (hpeek : s.lib.ins.canardPeekTxQueue = some frame) :
    (¬s.cell.Inversion m frame ∧ ∃ s', s.transmit esr m = .ok s' ∧ Inv s') ∨
      (s.cell.Inversion m frame ∧ s.transmit esr m = .error .assertion) := by
  obtain ⟨hid, herr⟩ := h.plain_of_peek hpeek
  have hcarries : ((s.cell.processErrorStatus esr).leaveAll m.all).Carries s.lib.popped :=
    h.carries.processErrorStatus.leaveAll
  rw [Sender.transmit, hpeek]
  dsimp only
  rcases BxCan.canardSTM32Transmit_cases s.cell esr m hid herr with
    ⟨hnot, hrun⟩ | ⟨hinv, hrun⟩ | ⟨hnot, hfirst, i, hempty, hrun⟩
  · rw [hrun]
    exact Or.inl ⟨hnot, _, rfl, h.ofCell hcarries⟩
  · rw [hrun]
    exact Or.inr ⟨hinv, rfl⟩
  · -- the frame is in front of the queue, so it can be taken off
    have hsound := Library.sound_of_reachable h.reachable
    have hne : ¬s.lib.Fatal .pop := by
      intro hnil
      rw [CanardInstance.canardPeekTxQueue, hnil] at hpeek
      cases hpeek
    obtain ⟨hfatal, -⟩ | ⟨-, lib, hpop, -⟩ := hsound.pop
    · exact absurd hfatal hne
    have hlib : library.Reachable lib := h.reachable.step ⟨hpop, rfl⟩
    obtain ⟨ins, -, heq⟩ := Call.bind_eq_ok.mp hpop
    have heq := Call.pure_eq_ok.mp heq
    rw [hpeek] at heq
    refine Or.inl ⟨hnot,
      ⟨lib, ((s.cell.processErrorStatus esr).leaveAll m.all).write i frame⟩, ?_, hlib, ?_, ?_⟩
    · rw [hrun, Call.bind_eq_ok]
      exact ⟨_, rfl, Call.bind_eq_ok.mpr ⟨lib, hpop, rfl⟩⟩
    · rw [← heq]
      exact h.plain
    · rw [← heq]
      exact hcarries.write hempty hid herr hfirst

theorem Inv.transmit (h : Inv s) (hok : s.transmit esr m = .ok s') : Inv s' := by
  cases hpeek : s.lib.ins.canardPeekTxQueue with
  | none =>
      rw [Sender.transmit, hpeek] at hok
      cases hok
      exact h
  | some frame =>
      rcases h.transmit_cases esr m hpeek with ⟨-, s₁, hs₁, hinv⟩ | ⟨-, hrun⟩
      · cases hs₁.symm.trans hok
        exact hinv
      · cases hrun.symm.trans hok

/-- What a pass of the receive loop does to the cell. -/
theorem receive_cases {rxMailbox : Fin 2 → Option Mailbox} {garbage : Garbage}
    {shouldAccept : Offer → Option UInt64} {timestampUsec : UInt64}
    (hok : s.receive esr rxMailbox garbage shouldAccept timestampUsec = .ok s') :
    s'.cell = s.cell.processErrorStatus esr ∧
      (s'.lib = s.lib ∨
        ∃ frame, s.lib.step (.frame garbage shouldAccept frame timestampUsec) = .ok s'.lib) := by
  rw [Sender.receive, BxCan.canardSTM32Receive] at hok
  split at hok
  · rename_i heq
    cases hok
    exact ⟨(congrArg Prod.snd heq).symm, Or.inl rfl⟩
  · rename_i frame cell heq
    obtain ⟨lib, hlib, hok⟩ := Call.bind_eq_ok.mp hok
    cases Call.pure_eq_ok.mp hok
    exact ⟨(congrArg Prod.snd heq).symm, Or.inr ⟨frame, hlib⟩⟩

theorem inv_step {input : SenderInput} (h : Inv s) (ha : s.Allowed input)
    (hok : s.step input = .ok s') : Inv s' := by
  cases input with
  | library input =>
      obtain ⟨lib, hlib, hok⟩ := Call.bind_eq_ok.mp hok
      cases Call.pure_eq_ok.mp hok
      cases input with
      | pop => cases ha
      | _ =>
          refine h.ofLibrary (by simp) ?_ hlib
          exact ha
  | transmit esr m => exact h.transmit hok
  | receive esr rxMailbox garbage shouldAccept timestampUsec =>
      obtain ⟨lib, cell⟩ := s'
      obtain ⟨hcell, hlib⟩ := receive_cases hok
      dsimp only at hcell hlib
      rw [hcell]
      have hread : Inv { s with cell := s.cell.processErrorStatus esr } :=
        h.ofCell h.carries.processErrorStatus
      rcases hlib with rfl | ⟨frame, hlib⟩
      · exact hread
      · refine hread.ofLibrary (by simp) ?_ hlib
        exact ha
  | departs x =>
      cases hok
      exact h.ofCell h.carries.leave

theorem inv_reachable (h : sender.Reachable s) : Inv s := by
  refine h.invariant ?_ ?_
  · rintro s ⟨memArenaSize, abortTxOnError, rfl⟩
    exact ⟨.init ⟨memArenaSize, rfl⟩, fun _ hframe => absurd hframe List.not_mem_nil, .nil⟩
  · exact fun s input s' _ hs hst => inv_step hs hst.2 hst.1

/-- What the library made has left, waits in a mailbox or waits on the queue,
each frame once; and frames of one identifier leave in the order in which they
were made. -/
theorem frames_served (h : sender.Reachable s) :
    (s.left.map Prod.fst ++
      (s.cell.pending ++ s.lib.ins.txQueue.map CanardTxQueueItem.frame)).Perm s.lib.enqueued ∧
    ∀ k, ofKey CanardCANFrame.key k (s.left.map Prod.fst) ++
      (ofKey CanardCANFrame.key k s.cell.pending ++
        ofKey CanardCANFrame.key k (s.lib.ins.txQueue.map CanardTxQueueItem.frame)) =
      ofKey CanardCANFrame.key k s.lib.enqueued := by
  have hinv := inv_reachable h
  have hserved := (Library.sound_of_reachable hinv.reachable).served
  exact ⟨hserved.perm_pool hinv.carries, hserved.fifo_pool hinv.carries⟩

/-- The transmit loop stops the program iff three frames wait in the mailboxes,
none of them leaves before the driver has looked at it, and the next one goes
before all of them. -/
theorem transmit_returns_iff (h : sender.Reachable s) :
    (s.step (.transmit esr m)).Returns ↔
      ¬∃ frame, s.lib.ins.canardPeekTxQueue = some frame ∧ s.cell.Inversion m frame := by
  rw [Sender.step]
  cases hpeek : s.lib.ins.canardPeekTxQueue with
  | none =>
      rw [Sender.transmit, hpeek]
      refine iff_of_true ⟨s, rfl⟩ ?_
      rintro ⟨frame, hframe, -⟩
      cases hframe
  | some frame =>
      rcases (inv_reachable h).transmit_cases esr m hpeek with ⟨hnot, s', hs', -⟩ | ⟨hinv, hrun⟩
      · refine iff_of_true ⟨s', hs'⟩ ?_
        rintro ⟨frame', hframe, hinv⟩
        cases hframe
        exact hnot hinv
      · rw [hrun]
        exact iff_of_false (Call.not_returns_error _) (not_not.mpr ⟨frame, rfl, hinv⟩)

end Steps

/-! ## Without bus errors -/

/-- The driver reads no bus error. -/
def quiet : SenderInput → Bool
  | .transmit esr _ | .receive esr .. => (esr &&& canEsrLecMask) >>> 4 = 0
  | _ => true

section Errors

variable {s s' : Sender} {input : SenderInput} {inputs : List SenderInput}

theorem unaborted_step (h : s.cell.Unaborted) (ha : s.Allowed input) (hquiet : quiet input = true)
    (hok : s.step input = .ok s') : s'.cell.Unaborted := by
  cases input with
  | library input =>
      obtain ⟨lib, -, hok⟩ := Call.bind_eq_ok.mp hok
      cases Call.pure_eq_ok.mp hok
      exact h
  | transmit esr m =>
      rw [Sender.step, Sender.transmit] at hok
      split at hok
      · cases hok
        exact h
      obtain ⟨r, hrun, hok⟩ := Call.bind_eq_ok.mp hok
      have hcell : r.2.Unaborted := h.transmit (of_decide_eq_true hquiet) ha hrun
      dsimp only at hok
      split at hok
      · cases Call.pure_eq_ok.mp hok
        exact hcell
      · obtain ⟨lib, -, hok⟩ := Call.bind_eq_ok.mp hok
        cases Call.pure_eq_ok.mp hok
        exact hcell
  | receive esr rxMailbox garbage shouldAccept timestampUsec =>
      rw [(receive_cases hok).1, BxCan.processErrorStatus_quiet (of_decide_eq_true hquiet)]
      exact h
  | departs x =>
      cases hok
      exact h.leave ha

/-- In a run without bus errors no frame is given up: each is sent, waits in a
mailbox or waits on the queue. -/
theorem all_sent (hinit : sender.init s) (hrun : sender.Run s inputs s')
    (hquiet : ∀ input ∈ inputs, quiet input = true) :
    (∀ p ∈ s'.left, p.2 = true) ∧
    (s'.left.map Prod.fst ++
      (s'.cell.pending ++ s'.lib.ins.txQueue.map CanardTxQueueItem.frame)).Perm
        s'.lib.enqueued := by
  have hstart : s.cell.Unaborted := by
    obtain ⟨memArenaSize, abortTxOnError, rfl⟩ := hinit
    exact ⟨fun _ _ hmb => absurd hmb (by simp), fun _ hp => absurd hp List.not_mem_nil⟩
  have hall : s'.cell.Unaborted := by
    clear hinit
    induction hrun with
    | nil => exact hstart
    | cons hst _ ih =>
        obtain ⟨hhead, htail⟩ := List.forall_mem_cons.mp hquiet
        exact ih htail (unaborted_step hstart hst.2 hhead hst.1)
  have hinv := inv_reachable (hrun.reachable (.init hinit))
  exact ⟨hall.sent, (Library.sound_of_reachable hinv.reachable).served.perm_pool hinv.carries⟩

end Errors

/-! ## A message that is overtaken, and one that finds no room -/

/-- The inputs are taken one after the other, as long as they are allowed. -/
def run (s : Sender) (inputs : List SenderInput) : Call Sender :=
  inputs.foldlM (fun s input => if s.Allowed input then s.step input else .error .hang) s

theorem reachable_of_run {s s' : Sender} {inputs : List SenderInput} (h : sender.Reachable s)
    (hrun : s.run inputs = .ok s') : sender.Reachable s' := by
  rw [run] at hrun
  exact (Machine.run_of_foldlM _ Halt.hang hrun).reachable h

/-- The second frame of a message waits on the queue for the first to be sent,
which happens while the driver is called.  Meanwhile another message comes, is
written to a mailbox and goes first. -/
def overtaken : List SenderInput :=
  [.library (.setLocalNodeId 5), .library (.broadcast 7 100 0 24 (List.replicate 12 0)),
    .transmit 0 {}, .transmit 0 {}, .library (.broadcast 7 100 1 4 [1]), .transmit 0 {},
    .transmit 0 {}, .departs ⟨Fin.last 2, true⟩,
    .transmit 0 { first := [⟨(Fin.last 2).rev, true⟩] }, .departs ⟨(Fin.last 2).rev, true⟩]

theorem frames_served_overtaken : ∃ s, sender.Reachable s ∧
    s.left.map (fun p => priorityFromId p.1.id) = [4, 24, 24] ∧
    (s.left.map Prod.fst ++
      (s.cell.pending ++ s.lib.ins.txQueue.map CanardTxQueueItem.frame)).Perm s.lib.enqueued ∧
    ∀ k, ofKey CanardCANFrame.key k (s.left.map Prod.fst) ++
      (ofKey CanardCANFrame.key k s.cell.pending ++
        ofKey CanardCANFrame.key k (s.lib.ins.txQueue.map CanardTxQueueItem.frame)) =
      ofKey CanardCANFrame.key k s.lib.enqueued := by
  have hrun : Call.ReturnsWith (run { lib := { ins := canardInit 128 } } overtaken) fun s =>
      s.left.map (fun p => priorityFromId p.1.id) = [4, 24, 24] := by
    decide +kernel
  obtain ⟨s, hs, hleft⟩ := hrun
  have hr := reachable_of_run (.init ⟨128, false, rfl⟩) hs
  exact ⟨s, hr, hleft, frames_served hr⟩

theorem all_sent_overtaken : ∃ s : Sender, s.left.length = 3 ∧ (∀ p ∈ s.left, p.2 = true) ∧
    (s.left.map Prod.fst ++
      (s.cell.pending ++ s.lib.ins.txQueue.map CanardTxQueueItem.frame)).Perm s.lib.enqueued := by
  have hrun : Call.ReturnsWith (run { lib := { ins := canardInit 128 } } overtaken) fun s =>
      s.left.length = 3 := by
    decide +kernel
  obtain ⟨s, hs, hthree⟩ := hrun
  rw [run] at hs
  have hquiet : ∀ input ∈ overtaken, quiet input = true := by decide
  exact ⟨s, hthree, all_sent ⟨128, false, rfl⟩ (Machine.run_of_foldlM _ Halt.hang hs) hquiet⟩

/-- Four messages, each of which goes before those in front of it. -/
def inversion : List SenderInput :=
  [.library (.setLocalNodeId 5), .library (.broadcast 7 100 0 24 [1]), .transmit 0 {},
    .library (.broadcast 7 100 1 16 [1]), .transmit 0 {}, .library (.broadcast 7 100 2 8 [1]),
    .transmit 0 {}, .library (.broadcast 7 100 3 4 [1])]

/-- The next frame goes before three that wait. -/
def findsNoRoom (s : Sender) : Bool :=
  s.lib.ins.canardPeekTxQueue.any fun frame =>
    decide (s.cell.GoesFirst frame) && decide s.cell.Full

/-- One of them is given up before the driver looks at it. -/
def gaveUp : Meanwhile where
  first := [⟨Fin.last 2, false⟩]

/-- Whether the program goes on depends on when that happens. -/
theorem transmit_returns_iff_inversion : ∃ s, sender.Reachable s ∧
    ¬(s.step (.transmit 0 {})).Returns ∧
    s.Allowed (.transmit 20 gaveUp) = true ∧ (s.step (.transmit 20 gaveUp)).Returns := by
  have hrun : Call.ReturnsWith (run { lib := { ins := canardInit 128 } } inversion) fun s =>
      s.findsNoRoom = true ∧ s.Allowed (.transmit 20 gaveUp) = true := by
    decide +kernel
  obtain ⟨s, hs, hfull, hallowed⟩ := hrun
  have hr := reachable_of_run (.init ⟨128, false, rfl⟩) hs
  obtain ⟨frame, hpeek, hboth⟩ := (Option.any_eq_true _ _).mp hfull
  rw [Bool.and_eq_true, decide_eq_true_eq, decide_eq_true_eq] at hboth
  refine ⟨s, hr, fun hret => (transmit_returns_iff hr).mp hret ⟨frame, hpeek, hboth.1, hboth.2, ?_⟩,
    hallowed, (transmit_returns_iff hr).mpr ?_⟩
  · simp [Meanwhile.upTo]
  · rintro ⟨-, -, -, -, hkept⟩
    exact hkept (Fin.last 2) ⟨Fin.last 2, false⟩ (List.mem_append_left _ List.mem_cons_self) rfl

end Sender

end UavcanAdapter
