/-
# `Canard.Instance` — the library under any application

The application hands frames and time to the library, sends, takes frames off
the queue and is told of transfers; while it is told it may send, and release
the payload early.  Any order of these is a run of `library`.

Over all runs the memory is accounted for (`Sound.accounts`): each block is
free, or belongs to one queue item, one reception state, or the payload of
one state or of the transfer in flight.  No assertion about the allocator ever
fails.  What can fail is said exactly by `Fatal`, and `returns_iff_not_fatal`
proves it.
-/
import UavcanAdapter.Base.Machine
import UavcanAdapter.Canard.Reception
import UavcanAdapter.Canard.Transmission

namespace UavcanAdapter

open Base

/-! ## States -/

section RxStates

variable {states front back : List CanardRxState} {st st' : CanardRxState} {d : UInt32}

/-- The keys of the states. -/
def descriptors (states : List CanardRxState) : List UInt32 :=
  states.map CanardRxState.dtidTtSnidDnid

/-- The blocks of all states. -/
def rxOwned (states : List CanardRxState) : List Nat := states.flatMap CanardRxState.owned

theorem findRxState_eq_some (h : findRxState states d = some st) :
    ∃ front back, states = front ++ st :: back ∧ st.dtidTtSnidDnid = d ∧
      ∀ x ∈ front, x.dtidTtSnidDnid ≠ d := by
  obtain ⟨hd, front, back, hsplit, hfront⟩ := List.find?_eq_some_iff_append.mp h
  exact ⟨front, back, hsplit, of_decide_eq_true hd, fun x hx => by simpa using hfront x hx⟩

theorem findRxState_eq_none : findRxState states d = none ↔ d ∉ descriptors states := by
  rw [findRxState, List.find?_eq_none, descriptors, List.mem_map]
  constructor
  · rintro h ⟨x, hx, hxd⟩
    exact h x hx (decide_eq_true hxd)
  · rintro h x hx hxd
    exact h ⟨x, hx, of_decide_eq_true hxd⟩

theorem findRxState_cons : findRxState (st :: states) d =
    if st.dtidTtSnidDnid = d then some st else findRxState states d := by
  rw [findRxState, List.find?_cons]
  by_cases h : st.dtidTtSnidDnid = d
  · rw [if_pos h, decide_eq_true h]
  · rw [if_neg h, decide_eq_false h]
    rfl

/-- The state that was found is the one that is written. -/
theorem storeRxState_append (hfront : ∀ x ∈ front, x.dtidTtSnidDnid ≠ st.dtidTtSnidDnid)
    (hslot : st.dtidTtSnidDnid = st'.dtidTtSnidDnid) :
    storeRxState st' (front ++ st :: back) = front ++ st' :: back := by
  induction front with
  | nil => exact if_pos hslot
  | cons x front ih =>
      obtain ⟨hx, hfront⟩ := List.forall_mem_cons.mp hfront
      rw [List.cons_append, storeRxState, if_neg (hslot ▸ hx), ih hfront]
      rfl

theorem descriptors_storeRxState : descriptors (storeRxState st states) = descriptors states := by
  induction states with
  | nil => rfl
  | cons x states ih =>
      rw [storeRxState]
      split
      · rename_i h
        rw [descriptors, descriptors, List.map_cons, List.map_cons, h]
      · rw [descriptors, List.map_cons]
        exact congrArg _ ih

/-- A state that is written is found. -/
theorem findRxState_store_self (hmem : st.dtidTtSnidDnid ∈ descriptors states) :
    findRxState (storeRxState st states) st.dtidTtSnidDnid = some st := by
  induction states with
  | nil => cases hmem
  | cons x states ih =>
      rw [storeRxState]
      split
      · exact findRxState_cons.trans (if_pos rfl)
      · rename_i hne
        rw [findRxState_cons, if_neg hne]
        exact ih ((List.mem_cons.mp hmem).resolve_left (Ne.symm hne))

/-- No other state changes. -/
theorem findRxState_store_ne (hne : st.dtidTtSnidDnid ≠ d) :
    findRxState (storeRxState st states) d = findRxState states d := by
  induction states with
  | nil => rfl
  | cons x states ih =>
      rw [storeRxState]
      split
      · rename_i h
        rw [findRxState_cons, findRxState_cons, if_neg hne, if_neg (h ▸ hne)]
      · rw [findRxState_cons, findRxState_cons, ih]

theorem rxOwned_append (xs ys : List CanardRxState) :
    rxOwned (xs ++ ys) = rxOwned xs ++ rxOwned ys :=
  List.flatMap_append

/-- One state in front, the others behind. -/
theorem perm_rxOwned (front back : List CanardRxState) (st : CanardRxState) :
    (rxOwned (front ++ st :: back)).Perm (st.owned ++ rxOwned (front ++ back)) := by
  rw [rxOwned_append, rxOwned_append]
  exact List.perm_append_comm_assoc _ _ _

end RxStates

/-! ## The state a frame is for -/

namespace CanardInstance

section Frames

open CanardRxState CanardPoolAllocator

variable {garbage : Garbage} {shouldAccept : Offer → Option UInt64} {ins ins' : CanardInstance}
  {frame : CanardCANFrame} {tailByte : UInt8} {timestampUsec : UInt64} {others : List Nat}
  {accepted : Option UInt64} {st : CanardRxState} {d : UInt32} {r : Option Reception}

/-- The state with key `d` is there, or a new one is put in front. -/
inductive Selects (garbage : Garbage) (ins : CanardInstance) (d : UInt32) :
    CanardInstance → CanardRxState → Prop
  | found {st : CanardRxState} : findRxState ins.rxStates d = some st → Selects garbage ins d ins st
  | created {st : CanardRxState} {allocator : CanardPoolAllocator} :
      findRxState ins.rxStates d = none →
      createRxState garbage ins.allocator d = some (st, allocator) →
      Selects garbage ins d { ins with allocator, rxStates := st :: ins.rxStates } st

theorem selects_of_traverseRxStates (h : ins.traverseRxStates garbage d = some (ins', st)) :
    Selects garbage ins d ins' st := by
  have hcreate : ∀ {x : CanardRxState × CanardPoolAllocator},
      findRxState ins.rxStates d = none → createRxState garbage ins.allocator d = some x →
      (({ ins with allocator := x.2, rxStates := x.1 :: ins.rxStates } : CanardInstance), x.1) =
        (ins', st) → Selects garbage ins d ins' st := by
    rintro ⟨x, allocator⟩ hnone hx heq
    cases heq
    exact .created hnone hx
  rw [traverseRxStates] at h
  split at h
  · rename_i hempty
    have hnil := List.isEmpty_iff.mp hempty
    obtain ⟨x, hx, heq⟩ := Option.map_eq_some_iff.mp h
    refine hcreate (by rw [hnil]; rfl) hx ?_
    rw [hnil]
    exact heq
  · cases hfind : findRxState ins.rxStates d with
    | some st' =>
        rw [hfind] at h
        cases h
        exact .found hfind
    | none =>
        rw [hfind] at h
        obtain ⟨x, hx, heq⟩ := Option.map_eq_some_iff.mp h
        exact hcreate hfind hx heq

/-- A frame is for the state with its key, of which it changes the CRC at most. -/
theorem selectRxState_spec
    (h : ins.selectRxState garbage frame tailByte accepted = some (ins', st)) :
    ∃ st₀, Selects garbage ins (transferDescriptor frame.id) ins' st₀ ∧
      st = { st₀ with calculatedCrc := st.calculatedCrc } ∧
      (isStartOfTransfer tailByte = false →
        ins' = ins ∧ findRxState ins.rxStates (transferDescriptor frame.id) = some st) := by
  unfold selectRxState at h
  split at h
  · rename_i hstart
    cases accepted with
    | none => cases h
    | some dataTypeSignature =>
        obtain ⟨⟨ins₁, st₀⟩, hselect, heq⟩ := Option.map_eq_some_iff.mp h
        cases heq
        refine ⟨st₀, selects_of_traverseRxStates hselect, rfl, fun hno => ?_⟩
        rw [hno] at hstart
        cases hstart
  · obtain ⟨st₀, hfind, heq⟩ := Option.map_eq_some_iff.mp h
    cases heq
    exact ⟨st, .found hfind, rfl, fun _ => ⟨rfl, hfind⟩⟩

theorem selectRxState_of_not_start (hstart : isStartOfTransfer tailByte = false) :
    ins.selectRxState garbage frame tailByte accepted =
      (findRxState ins.rxStates (transferDescriptor frame.id)).map fun st => (ins, st) := by
  unfold selectRxState
  rw [hstart]
  rfl

/-- A selected state is one of the states, and the memory is accounted for. -/
theorem Selects.split (h : Selects garbage ins d ins' st)
    (hacc : ins.allocator.Accounts (rxOwned ins.rxStates ++ others)) :
    ∃ front back, ins' = { ins with allocator := ins'.allocator, rxStates := front ++ st :: back } ∧
      st.dtidTtSnidDnid = d ∧ (∀ x ∈ front, x.dtidTtSnidDnid ≠ d) ∧
      ins'.allocator.Accounts (st.owned ++ (rxOwned (front ++ back) ++ others)) ∧
      (descriptors ins'.rxStates = descriptors ins.rxStates ∨
        d ∉ descriptors ins.rxStates ∧
          descriptors ins'.rxStates = d :: descriptors ins.rxStates) := by
  cases h with
  | found hfind =>
      obtain ⟨front, back, hsplit, hd, hfront⟩ := findRxState_eq_some hfind
      refine ⟨front, back, by rw [← hsplit], hd, hfront, ?_, Or.inl rfl⟩
      rw [hsplit] at hacc
      refine hacc.of_perm ?_
      rw [← List.append_assoc]
      exact (perm_rxOwned front back st).append_right others
  | created hnone hcreate =>
      obtain ⟨⟨block, allocator⟩, halloc, heq⟩ := Option.map_eq_some_iff.mp hcreate
      cases heq
      exact ⟨[], ins.rxStates, rfl, rfl, nofun, hacc.allocate halloc,
        Or.inr ⟨findRxState_eq_none.mp hnone, rfl⟩⟩

/-- The last frame of a transfer meets a state whose number of bytes does not
fit its number of blocks. -/
def MeetsMisfit (ins : CanardInstance) (frame : CanardCANFrame) (timestampUsec : UInt64) : Prop :=
  ∃ offer tailByte st, UavcanAdapter.canardHandleRxFrame ins.nodeId frame = some offer ∧
    frame.data.getLast? = some tailByte ∧
    findRxState ins.rxStates (transferDescriptor frame.id) = some st ∧
    st.needRestart tailByte timestampUsec = false ∧ st.TakesAsLast tailByte ∧ st.Misfit

/-- A frame fails iff it meets a misfit.  Otherwise the memory stays accounted
for, and nothing but the reception states changes. -/
theorem canardHandleRxFrame_spec (garbage : Garbage) (shouldAccept : Offer → Option UInt64)
    (frame : CanardCANFrame) (timestampUsec : UInt64)
    (hacc : ins.allocator.Accounts (rxOwned ins.rxStates ++ others)) :
    (ins.MeetsMisfit frame timestampUsec ∧
      ins.canardHandleRxFrame garbage shouldAccept frame timestampUsec = .error .assertion) ∨
    (¬ins.MeetsMisfit frame timestampUsec ∧ ∃ ins' r,
      ins.canardHandleRxFrame garbage shouldAccept frame timestampUsec = .ok (ins', r) ∧
      ins' = { ins with allocator := ins'.allocator, rxStates := ins'.rxStates } ∧
      ins'.allocator.Accounts
        (rxOwned ins'.rxStates ++ (ownedBy (r.map Reception.transfer) ++ others)) ∧
      ((descriptors ins.rxStates).Nodup → (descriptors ins'.rxStates).Nodup) ∧
      ∀ x ∈ r, x.transferDescriptor ∈ descriptors ins'.rxStates) := by
  rw [canardHandleRxFrame]
  cases hoffer : UavcanAdapter.canardHandleRxFrame ins.nodeId frame with
  | none =>
      refine Or.inr ⟨?_, ins, none, rfl, rfl, hacc, id, nofun⟩
      rintro ⟨offer, tailByte, st, hsome, -⟩
      rw [hoffer] at hsome
      cases hsome
  | some offer =>
  cases htail : frame.data.getLast? with
  | none =>
      refine Or.inr ⟨?_, ins, none, rfl, rfl, hacc, id, nofun⟩
      rintro ⟨offer, tailByte, st, -, hsome, -⟩
      rw [htail] at hsome
      cases hsome
  | some tailByte =>
  dsimp only
  cases hselect : ins.selectRxState garbage frame tailByte (shouldAccept offer) with
  | none =>
      refine Or.inr ⟨?_, ins, none, rfl, rfl, hacc, id, nofun⟩
      rintro ⟨offer', tailByte', st, -, hsome, hfind, -, htakes, -⟩
      rw [htail] at hsome
      cases hsome
      rw [selectRxState_of_not_start htakes.1, hfind] at hselect
      cases hselect
  | some p =>
      obtain ⟨ins₁, st⟩ := p
      obtain ⟨st₀, hselects, hst, hfound⟩ := selectRxState_spec hselect
      obtain ⟨front, back, hins, hd, hfront, hacc', hdesc⟩ := hselects.split hacc
      have howned : st.owned = st₀.owned := by rw [hst]; rfl
      have hd' : st.dtidTtSnidDnid = transferDescriptor frame.id := by rw [hst, ← hd]
      rw [← howned] at hacc'
      dsimp only
      rcases handleFrame_spec garbage frame tailByte timestampUsec hacc' with
        ⟨hrestart, htakes, hmisfit, hrun⟩ | ⟨hfit, a', st', transfer, hrun, hslot, hacc''⟩
      · refine Or.inl ⟨⟨offer, tailByte, st, hoffer, htail, (hfound htakes.1).2, hrestart, htakes,
          hmisfit⟩, ?_⟩
        rw [hrun]
        rfl
      · refine Or.inr ⟨?_, _, _, Call.bind_eq_ok.mpr ⟨_, hrun, rfl⟩, ?_, ?_, ?_, ?_⟩
        · rintro ⟨offer', tailByte', st₁, -, hsome, hfind, hrestart, htakes, hmisfit⟩
          rw [htail] at hsome
          cases hsome
          rw [(hfound htakes.1).2] at hfind
          cases hfind
          exact hfit ⟨hrestart, htakes, hmisfit⟩
        · rw [hins]
        · have hstates : storeRxState st' ins₁.rxStates = front ++ st' :: back := by
            rw [hins]
            exact storeRxState_append (fun x hx => hd ▸ hfront x hx)
              ((hd.trans hd'.symm).trans hslot.2.symm)
          dsimp only
          rw [hstates, Option.map_map]
          refine hacc''.of_perm ?_
          have hperm := perm_rxOwned front back st'
          have hsome : transfer.map (Reception.transfer ∘ fun transfer =>
              ({ transferDescriptor := transferDescriptor frame.id, transfer } : Reception)) =
              transfer := Option.map_id'
          rw [hsome, List.perm_iff_count]
          intro x
          have hcount := hperm.count_eq x
          simp only [List.count_append] at hcount ⊢
          omega
        · intro hnodup
          dsimp only
          rw [descriptors_storeRxState]
          rcases hdesc with heq | ⟨hnew, heq⟩
          · rwa [heq]
          · rw [heq]
            exact List.nodup_cons.mpr ⟨hnew, hnodup⟩
        · intro x hx
          obtain ⟨transfer', -, rfl⟩ := Option.map_eq_some_iff.mp hx
          dsimp only
          rw [descriptors_storeRxState, hins]
          exact List.mem_map.mpr ⟨st₀, List.mem_append_right _ (List.mem_cons_self ..), hd⟩

/-- Stale states are removed with all that they have, the others stay. -/
theorem cleanupLoop_spec (now : UInt64) :
    ∀ {states : List CanardRxState} {a : CanardPoolAllocator} {others : List Nat},
      a.Accounts (rxOwned states ++ others) →
      ∃ a', cleanupLoop now a states = .ok (a', states.filter fun st =>
          !decide (now - st.timestampUsec > transferTimeoutUsec)) ∧
        a'.Accounts (rxOwned (states.filter fun st =>
          !decide (now - st.timestampUsec > transferTimeoutUsec)) ++ others)
  | [], a, _, hacc => ⟨a, rfl, hacc⟩
  | st :: states, a, others, hacc => by
      have hperm : a.Accounts (st.owned ++ (rxOwned states ++ others)) := by
        rw [← List.append_assoc]
        exact hacc
      rw [cleanupLoop]
      by_cases hstale : now - st.timestampUsec > transferTimeoutUsec
      · obtain ⟨a₁, hrelease, hacc₁, -⟩ := releaseStatePayload_spec hperm
        obtain ⟨a₂, hfree, hacc₂, -⟩ := hacc₁.free
        obtain ⟨a₃, hrest, hacc₃⟩ := cleanupLoop_spec now hacc₂
        rw [List.filter_cons_of_neg (by simpa using hstale)]
        refine ⟨a₃, ?_, hacc₃⟩
        rw [if_pos hstale, hrelease, Call.ok_bind]
        dsimp only
        rw [hfree, Call.ok_bind, hrest]
      · have hothers : a.Accounts (rxOwned states ++ (st.owned ++ others)) :=
          hperm.of_perm (List.perm_append_comm_assoc _ _ _)
        obtain ⟨a₁, hrest, hacc₁⟩ := cleanupLoop_spec now hothers
        rw [List.filter_cons_of_pos (by simpa using hstale)]
        refine ⟨a₁, ?_, ?_⟩
        · rw [if_neg hstale, hrest]
          rfl
        · refine hacc₁.of_perm ((List.perm_append_comm_assoc _ _ _).trans ?_)
          rw [← List.append_assoc]
          exact List.Perm.refl _

/-- The end of a reception fails iff its state has a payload of its own. -/
theorem finishReception_spec {r : Reception}
    (hacc : ins.allocator.Accounts (rxOwned ins.rxStates ++ (r.transfer.owned ++ others)))
    (hfind : findRxState ins.rxStates r.transferDescriptor = some st) :
    (st.bufferBlocks ≠ [] ∧ ins.finishReception r = .error .assertion) ∨
    (st.bufferBlocks = [] ∧ ∃ ins', ins.finishReception r = .ok ins' ∧
      ins' = { ins with allocator := ins'.allocator, rxStates := ins'.rxStates } ∧
      ins'.allocator.Accounts (rxOwned ins'.rxStates ++ others) ∧
      descriptors ins'.rxStates = descriptors ins.rxStates) := by
  obtain ⟨a', hfree, hacc', -⟩ :=
    (hacc.of_perm (List.perm_append_comm_assoc _ _ _)).frees
  have hrelease : ins.canardReleaseRxTransferPayload r.transfer =
      .ok ({ ins with allocator := a' }, { r.transfer with
        payloadHead := [], payloadMiddle := [], payloadTail := [], payloadLen := 0 }) :=
    Call.bind_eq_ok.mpr ⟨a', hfree, rfl⟩
  rw [finishReception, hrelease, Call.ok_bind]
  dsimp only
  rw [hfind]
  dsimp only
  by_cases hnil : st.bufferBlocks = []
  · refine Or.inr ⟨hnil, _, Call.bind_eq_ok.mpr ⟨_, prepareForNextTransfer_of_nil hnil, rfl⟩,
      rfl, ?_, descriptors_storeRxState⟩
    obtain ⟨front, back, hsplit, hd, hfront⟩ := findRxState_eq_some hfind
    dsimp only
    have hstore : storeRxState st.waiting (front ++ st :: back) = front ++ st.waiting :: back :=
      storeRxState_append (fun x hx => hd ▸ hfront x hx) rfl
    rw [hsplit] at hacc' ⊢
    rw [hstore]
    refine hacc'.of_perm (List.Perm.append_right others ?_)
    exact (perm_rxOwned front back st).trans (perm_rxOwned front back st.waiting).symm
  · refine Or.inl ⟨hnil, ?_⟩
    rw [prepareForNextTransfer_of_ne_nil hnil]
    rfl

end Frames

end CanardInstance

/-! ## The machine -/

/-- The library, the transfer the application is being told of, and what has
happened so far: the transfers it was told of, the frames that were put on the
queue and those that were taken off. -/
structure Library where
  ins : CanardInstance
  inFlight : Option Reception := none
  delivered : List Reception := []
  enqueued : List CanardCANFrame := []
  popped : List CanardCANFrame := []

/-- What the application does. -/
inductive LibraryInput
  /-- a frame comes in; `garbage` is what a block holds that is allocated now -/
  | frame (garbage : Garbage) (shouldAccept : Offer → Option UInt64) (frame : CanardCANFrame)
      (timestampUsec : UInt64)
  /-- `on_reception` releases the payload itself -/
  | release
  /-- `on_reception` returns -/
  | finish
  | cleanup (currentTimeUsec : UInt64)
  | broadcast (dataTypeSignature : UInt64) (dataTypeId : UInt16) (transferId priority : UInt8)
      (payload : List UInt8)
  | requestOrRespond (destinationNodeId : UInt8) (dataTypeSignature : UInt64)
      (dataTypeId transferId priority : UInt8) (isRequest : Bool) (payload : List UInt8)
  | pop
  | setLocalNodeId (selfNodeId : UInt8)

/-- The transfer an input sends. -/
def LibraryInput.sends (nodeId : UInt8) : LibraryInput → Except Int TxTransfer
  | broadcast dataTypeSignature dataTypeId transferId priority payload =>
      composeBroadcast nodeId dataTypeSignature dataTypeId transferId priority payload
  | requestOrRespond destinationNodeId dataTypeSignature dataTypeId transferId priority isRequest
      payload =>
      composeService nodeId destinationNodeId dataTypeSignature dataTypeId transferId priority
        isRequest payload
  | _ => .error 0

namespace Library

/-- The frames that an input puts on the queue: as many as there are blocks. -/
def framesOf (s : Library) (input : LibraryInput) : List CanardCANFrame :=
  match input.sends s.ins.nodeId with
  | .error _ => []
  | .ok t => t.frames.take s.ins.allocator.freeList.length

/-- One input. -/
def step (s : Library) : LibraryInput → Call Library
  | .frame garbage shouldAccept frame timestampUsec => do
      let (ins, r) ← s.ins.canardHandleRxFrame garbage shouldAccept frame timestampUsec
      return { s with ins, inFlight := r, delivered := s.delivered ++ r.toList }
  | .release =>
      match s.inFlight with
      | none => .ok s
      | some r => do
          let (ins, transfer) ← s.ins.canardReleaseRxTransferPayload r.transfer
          return { s with ins, inFlight := some { r with transfer } }
  | .finish =>
      match s.inFlight with
      | none => .ok s
      | some r => do
          let ins ← s.ins.finishReception r
          return { s with ins, inFlight := none }
  | .cleanup currentTimeUsec => do
      let ins ← s.ins.canardCleanupStaleTransfers currentTimeUsec
      return { s with ins }
  | input@(.broadcast dataTypeSignature dataTypeId transferId priority payload) => do
      let (ins, _, _) ←
        s.ins.canardBroadcast dataTypeSignature dataTypeId transferId priority payload
      return { s with ins, enqueued := s.enqueued ++ s.framesOf input }
  | input@(.requestOrRespond destinationNodeId dataTypeSignature dataTypeId transferId priority
      isRequest payload) => do
      let (ins, _, _) ← s.ins.canardRequestOrRespond destinationNodeId dataTypeSignature dataTypeId
        transferId priority isRequest payload
      return { s with ins, enqueued := s.enqueued ++ s.framesOf input }
  | .pop => do
      let ins ← s.ins.canardPopTxQueue
      return { s with ins, popped := s.popped ++ s.ins.canardPeekTxQueue.toList }
  | .setLocalNodeId selfNodeId => do
      let ins ← s.ins.canardSetLocalNodeID selfNodeId
      return { s with ins }

/-- The library is not entered while it tells of a transfer, except to send and
to release. -/
def Allowed (s : Library) : LibraryInput → Bool
  | .frame .. | .cleanup .. => s.inFlight.isNone
  | .release | .finish => s.inFlight.isSome
  | _ => true

/-- What a call must not meet. -/
def Fatal (s : Library) : LibraryInput → Prop
  | .frame _ _ frame timestampUsec => s.ins.MeetsMisfit frame timestampUsec
  | .finish => ∃ r st, s.inFlight = some r ∧
      findRxState s.ins.rxStates r.transferDescriptor = some st ∧ st.bufferBlocks ≠ []
  | .pop => s.ins.txQueue = []
  | .setLocalNodeId selfNodeId => ¬(s.ins.nodeId = canardBroadcastNodeId ∧
      canardMinNodeId ≤ selfNodeId ∧ selfNodeId ≤ canardMaxNodeId)
  | _ => False

/-- All blocks that are in use. -/
def owned (s : Library) : List Nat :=
  rxOwned s.ins.rxStates ++ (ownedBy (s.inFlight.map Reception.transfer) ++
    s.ins.txQueue.map CanardTxQueueItem.block)

/-- What holds between any two inputs. -/
structure Sound (s : Library) : Prop where
  accounts : s.ins.allocator.Accounts s.owned
  distinct : (descriptors s.ins.rxStates).Nodup
  flying : ∀ r ∈ s.inFlight, r.transferDescriptor ∈ descriptors s.ins.rxStates
  nodeId : s.ins.nodeId ≤ canardMaxNodeId
  proper : ∀ frame ∈ s.ins.txQueue.map CanardTxQueueItem.frame, ProperId frame.id
  served : Served CanardCANFrame.key s.enqueued s.popped (s.ins.txQueue.map CanardTxQueueItem.frame)

section Steps

open CanardInstance

variable {s s' : Library} {input : LibraryInput} {t : TxTransfer}

theorem sound_init (memArenaSize : Nat) : Sound { ins := canardInit memArenaSize } where
  accounts := CanardPoolAllocator.accounts_init (by omega)
  distinct := List.nodup_nil
  flying := nofun
  nodeId := (by decide : canardBroadcastNodeId ≤ canardMaxNodeId)
  proper := nofun
  served := .nil

theorem served_pushAll {pushed popped : List CanardCANFrame} {items : List CanardTxQueueItem} :
    ∀ {txQueue : List CanardTxQueueItem},
      (∀ f ∈ txQueue.map CanardTxQueueItem.frame, ProperId f.id) →
      (∀ f ∈ items.map CanardTxQueueItem.frame, ProperId f.id) →
      Served CanardCANFrame.key pushed popped (txQueue.map CanardTxQueueItem.frame) →
      Served CanardCANFrame.key (pushed ++ items.map CanardTxQueueItem.frame) popped
        ((pushAll txQueue items).map CanardTxQueueItem.frame) := by
  induction items generalizing pushed with
  | nil =>
      intro txQueue _ _ h
      rw [List.map_nil, List.append_nil]
      exact h
  | cons item items ih =>
      intro txQueue hq hitems h
      obtain ⟨hitem, hitems⟩ := List.forall_mem_cons.mp hitems
      have hmap := CanardTxQueueItem.map_pushLoop hitem hq
      have hq' : ∀ f ∈ (pushLoop item txQueue).map CanardTxQueueItem.frame, ProperId f.id := by
        intro f hf
        rw [hmap, mem_enqueue] at hf
        rcases hf with rfl | hf
        · exact hitem
        · exact hq f hf
      have hpush := ih hq' hitems (hmap ▸ h.push)
      rwa [List.append_assoc, List.singleton_append] at hpush

/-- Frames that are put on the queue wait behind those that must go first. -/
theorem Sound.send (h : Sound s) (hplain : t.Plain) :
    ∃ ins result, s.ins.enqueueTxFrames t.canId t.transferId t.crc t.payload = .ok (ins, result) ∧
      Sound { s with
        ins
        enqueued := s.enqueued ++ t.frames.take s.ins.allocator.freeList.length } := by
  obtain ⟨allocator, items, hrun, hmap, htakes⟩ := enqueueTxFrames_spec s.ins hplain
  have hproper : ∀ f ∈ items.map CanardTxQueueItem.frame, ProperId f.id := by
    intro f hf
    rw [hmap] at hf
    rw [(forall_frames (List.mem_of_mem_take hf)).1]
    exact Or.inl or_eff_and_eff
  have hperm := perm_pushAll s.ins.txQueue items
  refine ⟨_, _, hrun, ?_, h.distinct, h.flying, h.nodeId, ?_, ?_⟩
  · refine (htakes _ h.accounts).of_perm ?_
    have hcount := (hperm.map CanardTxQueueItem.block).count_eq
    rw [List.perm_iff_count]
    intro x
    have hx := hcount x
    simp only [owned, List.count_append, List.map_append] at hx ⊢
    omega
  · intro f hf
    rcases List.mem_append.mp (List.map_append ▸ (hperm.map CanardTxQueueItem.frame).subset hf) with
      hf | hf
    · exact hproper f hf
    · exact h.proper f hf
  · have hserved := served_pushAll h.proper hproper h.served
    rw [hmap] at hserved
    exact hserved

/-- What an input leads to. -/
def Outcome (s : Library) (input : LibraryInput) : Prop :=
  (s.Fatal input ∧ ∀ s', s.step input ≠ .ok s') ∨
    (¬s.Fatal input ∧ ∃ s', s.step input = .ok s' ∧ s'.Sound)

theorem Sound.frame (h : Sound s) {garbage : Garbage} {shouldAccept : Offer → Option UInt64}
    {frame : CanardCANFrame} {timestampUsec : UInt64} (hfree : s.inFlight = none) :
    s.Outcome (.frame garbage shouldAccept frame timestampUsec) := by
  have hacc := h.accounts
  rw [owned, hfree] at hacc
  rcases canardHandleRxFrame_spec garbage shouldAccept frame timestampUsec hacc with
    ⟨hmisfit, hrun⟩ | ⟨hfit, ins', r, hrun, hins, hacc', hdistinct, hflying⟩
  · refine Or.inl ⟨hmisfit, fun s' hs' => ?_⟩
    rw [step, hrun] at hs'
    cases hs'
  · refine Or.inr ⟨hfit, _, Call.bind_eq_ok.mpr ⟨_, hrun, rfl⟩, ?_, hdistinct h.distinct, hflying,
      ?_, ?_, ?_⟩
    · rw [owned]
      rw [hins] at hacc' ⊢
      exact hacc'
    · rw [hins]
      exact h.nodeId
    · rw [hins]
      exact h.proper
    · rw [hins]
      exact h.served

theorem Sound.release (h : Sound s) : s.Outcome .release := by
  refine Or.inr ⟨id, ?_⟩
  rw [step]
  cases hflight : s.inFlight with
  | none => exact ⟨s, rfl, h⟩
  | some r =>
      have hacc := h.accounts
      rw [owned, hflight] at hacc
      obtain ⟨a', hfree, hacc', -⟩ :=
        (hacc.of_perm (List.perm_append_comm_assoc _ _ _)).frees
      refine ⟨_, Call.bind_eq_ok.mpr ⟨_, Call.bind_eq_ok.mpr ⟨a', hfree, rfl⟩, rfl⟩,
        hacc', h.distinct, ?_, h.nodeId, h.proper, h.served⟩
      rintro x ⟨⟩
      exact h.flying r hflight

theorem Sound.finish (h : Sound s) : s.Outcome .finish := by
  rw [Outcome]
  rw [step]
  cases hflight : s.inFlight with
  | none =>
      refine Or.inr ⟨?_, s, rfl, h⟩
      rintro ⟨r, st, hsome, -⟩
      rw [hflight] at hsome
      cases hsome
  | some r =>
      have hacc := h.accounts
      rw [owned, hflight] at hacc
      cases hfind : findRxState s.ins.rxStates r.transferDescriptor with
      | none => exact absurd (h.flying r hflight) (findRxState_eq_none.mp hfind)
      | some st =>
          have hfatal : s.Fatal .finish ↔ st.bufferBlocks ≠ [] := by
            constructor
            · rintro ⟨r', st', hflight', hfind', hne⟩
              rw [hflight] at hflight'
              cases hflight'
              rw [hfind] at hfind'
              cases hfind'
              exact hne
            · exact fun hne => ⟨r, st, hflight, hfind, hne⟩
          rcases finishReception_spec hacc hfind with
            ⟨hne, hrun⟩ | ⟨hnil, ins', hrun, hins, hacc', hdesc⟩
          · refine Or.inl ⟨hfatal.mpr hne, fun s' hs' => ?_⟩
            dsimp only at hs'
            rw [hrun] at hs'
            cases hs'
          · refine Or.inr ⟨fun hf => hfatal.mp hf hnil, _, Call.bind_eq_ok.mpr ⟨_, hrun, rfl⟩,
              ?_, ?_, nofun, ?_, ?_, ?_⟩
            · rw [owned]
              rw [hins] at hacc' ⊢
              exact hacc'
            · rw [hdesc]
              exact h.distinct
            · rw [hins]
              exact h.nodeId
            · rw [hins]
              exact h.proper
            · rw [hins]
              exact h.served

theorem Sound.cleanup (h : Sound s) {currentTimeUsec : UInt64} (hfree : s.inFlight = none) :
    s.Outcome (.cleanup currentTimeUsec) := by
  obtain ⟨a', hrun, hacc⟩ := cleanupLoop_spec currentTimeUsec h.accounts
  refine Or.inr ⟨id, _, Call.bind_eq_ok.mpr ⟨_, Call.bind_eq_ok.mpr ⟨_, hrun, rfl⟩, rfl⟩, hacc,
    ?_, ?_, h.nodeId, h.proper, h.served⟩
  · exact h.distinct.sublist (List.filter_sublist.map _)
  · dsimp only
    rw [hfree]
    nofun

theorem Sound.sends (h : Sound s) (hplain : ∀ t, input.sends s.ins.nodeId = .ok t → t.Plain)
    (hnot : ¬s.Fatal input)
    (hstep : ∀ {t ins result}, input.sends s.ins.nodeId = .ok t →
      s.ins.enqueueTxFrames t.canId t.transferId t.crc t.payload = .ok (ins, result) →
      s.step input = .ok { s with ins, enqueued := s.enqueued ++ s.framesOf input })
    (herror : ∀ {e}, input.sends s.ins.nodeId = .error e →
      s.step input = .ok { s with enqueued := s.enqueued ++ s.framesOf input }) :
    s.Outcome input := by
  refine Or.inr ⟨hnot, ?_⟩
  cases hsends : input.sends s.ins.nodeId with
  | error e =>
      refine ⟨_, herror hsends, ?_⟩
      rw [framesOf, hsends, List.append_nil]
      exact h
  | ok t =>
      obtain ⟨ins, result, hrun, hsound⟩ := h.send (hplain t hsends)
      refine ⟨_, hstep hsends hrun, ?_⟩
      rw [framesOf, hsends]
      exact hsound

theorem Sound.pop (h : Sound s) : s.Outcome .pop := by
  rw [Outcome]
  rw [step, canardPopTxQueue]
  cases hqueue : s.ins.txQueue with
  | nil =>
      refine Or.inl ⟨hqueue, fun s' hs' => ?_⟩
      cases hs'
  | cons item txQueue =>
      have hacc := h.accounts
      have hperm : s.owned.Perm (item.block :: (rxOwned s.ins.rxStates ++
          (ownedBy (s.inFlight.map Reception.transfer) ++
            txQueue.map CanardTxQueueItem.block))) := by
        rw [owned, hqueue, List.map_cons, List.perm_iff_count]
        intro x
        simp only [List.count_append, List.count_cons]
        omega
      obtain ⟨a', hfree, hacc', -⟩ := (hacc.of_perm hperm).free
      have hserved := h.served
      have hproper := h.proper
      rw [hqueue, List.map_cons] at hserved hproper
      refine Or.inr ⟨fun hnil => absurd (hqueue.symm.trans hnil) (List.cons_ne_nil _ _),
        _, Call.bind_eq_ok.mpr
        ⟨_, Call.bind_eq_ok.mpr ⟨a', hfree, rfl⟩, rfl⟩, hacc', h.distinct, h.flying, h.nodeId,
        (List.forall_mem_cons.mp hproper).2, ?_⟩
      rw [canardPeekTxQueue, hqueue]
      exact hserved.pop

theorem Sound.setLocalNodeId (h : Sound s) {selfNodeId : UInt8} :
    s.Outcome (.setLocalNodeId selfNodeId) := by
  by_cases hgood : s.ins.nodeId = canardBroadcastNodeId ∧ canardMinNodeId ≤ selfNodeId ∧
      selfNodeId ≤ canardMaxNodeId
  · refine Or.inr ⟨not_not.mpr hgood, { s with ins := { s.ins with nodeId := selfNodeId } }, ?_,
      h.accounts, h.distinct, h.flying, hgood.2.2, h.proper, h.served⟩
    rw [step, canardSetLocalNodeID, Call.assert_of_true hgood]
    rfl
  · refine Or.inl ⟨hgood, fun s' hs' => ?_⟩
    rw [step, canardSetLocalNodeID, Call.assert_of_false hgood] at hs'
    cases hs'

/-- Every input either is fatal or leads to a sound state again. -/
theorem Sound.outcome (h : Sound s) (ha : s.Allowed input) : s.Outcome input := by
  cases input with
  | frame garbage shouldAccept frame timestampUsec =>
      exact h.frame (Option.isNone_iff_eq_none.mp ha)
  | release => exact h.release
  | finish => exact h.finish
  | cleanup currentTimeUsec => exact h.cleanup (Option.isNone_iff_eq_none.mp ha)
  | broadcast dataTypeSignature dataTypeId transferId priority payload =>
      refine h.sends (fun t => plain_of_composeBroadcast) id ?_ ?_
      · intro t ins result hsends hrun
        rw [LibraryInput.sends] at hsends
        rw [step, CanardInstance.canardBroadcast, hsends]
        dsimp only
        rw [hrun]
        rfl
      · intro e hsends
        rw [LibraryInput.sends] at hsends
        rw [step, CanardInstance.canardBroadcast, hsends]
        rfl
  | requestOrRespond destinationNodeId dataTypeSignature dataTypeId transferId priority isRequest
      payload =>
      refine h.sends (fun t => plain_of_composeService) id ?_ ?_
      · intro t ins result hsends hrun
        rw [LibraryInput.sends] at hsends
        rw [step, CanardInstance.canardRequestOrRespond, hsends]
        dsimp only
        rw [hrun]
        rfl
      · intro e hsends
        rw [LibraryInput.sends] at hsends
        rw [step, CanardInstance.canardRequestOrRespond, hsends]
        rfl
  | pop => exact h.pop
  | setLocalNodeId selfNodeId => exact h.setLocalNodeId

end Steps

end Library

/-- The library under an application that may do anything in any order. -/
def library : Machine Library LibraryInput :=
  (Machine.ofFunction (fun s => ∃ memArenaSize, s = { ins := canardInit memArenaSize })
    Library.step).restrict fun s input _ => s.Allowed input

namespace Library

variable {s s' : Library} {input : LibraryInput}

theorem Sound.of_step (h : Sound s) (ha : s.Allowed input) (hok : s.step input = .ok s') :
    Sound s' := by
  rcases h.outcome ha with ⟨-, hno⟩ | ⟨-, s₁, hs₁, hsound⟩
  · exact absurd hok (hno s')
  · cases hs₁.symm.trans hok
    exact hsound

theorem sound_of_reachable (h : library.Reachable s) : Sound s := by
  refine h.invariant ?_ ?_
  · rintro s ⟨memArenaSize, rfl⟩
    exact sound_init memArenaSize
  · exact fun s input s' _ hs hst => hs.of_step hst.2 hst.1

/-- No block is lost and none has two owners, whatever the application does and
whatever the bus brings. -/
theorem memory_accounted (h : library.Reachable s) :
    s.ins.allocator.Accounts s.owned ∧ (descriptors s.ins.rxStates).Nodup :=
  ⟨(sound_of_reachable h).accounts, (sound_of_reachable h).distinct⟩

/-- The queue holds what was put on it and not taken off yet, the frame that
wins the arbitration is in front, and frames with one identifier leave it in
the order in which they came. -/
theorem queue_served (h : library.Reachable s) :
    Served CanardCANFrame.key s.enqueued s.popped (s.ins.txQueue.map CanardTxQueueItem.frame) :=
  (sound_of_reachable h).served

/-- A call returns iff it is not one of those that `Fatal` lists. -/
theorem returns_iff_not_fatal (h : library.Reachable s) (ha : s.Allowed input) :
    (s.step input).Returns ↔ ¬s.Fatal input := by
  rcases (sound_of_reachable h).outcome ha with ⟨hfatal, hno⟩ | ⟨hnot, s', hs', -⟩
  · exact ⟨fun ⟨s', hs'⟩ => absurd hs' (hno s'), fun hnot => absurd hfatal hnot⟩
  · exact ⟨fun _ => hnot, fun _ => ⟨s', hs'⟩⟩

/-! ## A message that breaks off, and one that is overtaken -/

/-- The inputs are taken one after the other, as long as they are allowed. -/
def run (s : Library) (inputs : List LibraryInput) : Call Library :=
  inputs.foldlM (fun s input => if s.Allowed input then s.step input else .error .hang) s

theorem reachable_of_run {s s' : Library} {inputs : List LibraryInput} (h : library.Reachable s)
    (hrun : s.run inputs = .ok s') : library.Reachable s' := by
  rw [run] at hrun
  exact (Machine.run_of_foldlM _ Halt.hang hrun).reachable h

/-- A message frame of node 5. -/
def messageFrame (priority : UInt8) (bytes : List UInt8) (tail : UInt8) : CanardCANFrame :=
  .compose (messageId priority 100 5) bytes tail

/-- The beginning of a message, the last frame of which is lost, and a short
message with the next transfer ID. -/
def brokenOff : List LibraryInput :=
  [.frame (fun _ _ => 0) (fun _ => some 7) (messageFrame 4 [1, 2, 3, 4, 5, 6, 7] 0x80) 10,
    .frame (fun _ _ => 0) (fun _ => some 7) (messageFrame 4 [1, 2, 3, 4, 5, 6, 7] 0x20) 20,
    .frame (fun _ _ => 0) (fun _ => some 7) (messageFrame 4 [9] 0xC1) 30]

/-- The state the last transfer in flight comes from has a payload of its own. -/
def keepsPayload (s : Library) : Bool :=
  match s.inFlight with
  | none => false
  | some r =>
      (findRxState s.ins.rxStates r.transferDescriptor).any fun st => !st.bufferBlocks.isEmpty

theorem fatal_of_keepsPayload (h : s.keepsPayload = true) : s.Fatal .finish := by
  rw [keepsPayload] at h
  cases hflight : s.inFlight with
  | none =>
      rw [hflight] at h
      cases h
  | some r =>
      rw [hflight] at h
      obtain ⟨st, hfind, hne⟩ := (Option.any_eq_true _ _).mp h
      refine ⟨r, st, hflight, hfind, fun hnil => ?_⟩
      rw [hnil] at hne
      cases hne

/-- Losing the end of a message and receiving a short one stops the system. -/
theorem returns_iff_not_fatal_brokenOff : ∃ s, library.Reachable s ∧ s.delivered.length = 1 ∧
    ¬(s.step .finish).Returns := by
  have hrun : Call.ReturnsWith (run { ins := canardInit 128 } brokenOff)
      fun s => s.keepsPayload = true ∧ s.Allowed .finish ∧ s.delivered.length = 1 := by
    decide +kernel
  obtain ⟨s, hs, hkeeps, ha, hone⟩ := hrun
  have hr := reachable_of_run (.init ⟨128, rfl⟩) hs
  exact ⟨s, hr, hone, fun hret =>
    (returns_iff_not_fatal hr ha).mp hret (fatal_of_keepsPayload hkeeps)⟩

theorem memory_accounted_brokenOff : ∃ s, library.Reachable s ∧ s.owned = [0, 1] ∧
    s.ins.allocator.Accounts s.owned ∧ (descriptors s.ins.rxStates).Nodup := by
  have hrun : Call.ReturnsWith (run { ins := canardInit 128 } brokenOff)
      fun s => s.owned = [0, 1] := by
    decide +kernel
  obtain ⟨s, hs, howned⟩ := hrun
  have hr := reachable_of_run (.init ⟨128, rfl⟩) hs
  exact ⟨s, hr, howned, memory_accounted hr⟩

/-- A long message waits, and a more urgent one is put in front of it. -/
def overtaken : List LibraryInput :=
  [.setLocalNodeId 5, .broadcast 7 100 0 24 (List.replicate 12 0), .broadcast 7 100 1 4 [1], .pop,
    .pop]

theorem queue_served_overtaken : ∃ s, library.Reachable s ∧
    s.popped.map (fun frame => priorityFromId frame.id) = [4, 24] ∧
    s.enqueued.map (fun frame => priorityFromId frame.id) = [24, 24, 4] ∧
    Served CanardCANFrame.key s.enqueued s.popped
      (s.ins.txQueue.map CanardTxQueueItem.frame) := by
  have hrun : Call.ReturnsWith (run { ins := canardInit 128 } overtaken) fun s =>
      s.popped.map (fun frame => priorityFromId frame.id) = [4, 24] ∧
      s.enqueued.map (fun frame => priorityFromId frame.id) = [24, 24, 4] := by
    decide +kernel
  obtain ⟨s, hs, hpopped, henqueued⟩ := hrun
  have hr := reachable_of_run (.init ⟨128, rfl⟩) hs
  exact ⟨s, hr, hpopped, henqueued, queue_served hr⟩

end Library

end UavcanAdapter
