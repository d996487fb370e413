/-
# `Canard.Delivery` — what the application is told

A run of the library brings frames of many transfers, mixed with everything
else the application does.  For one kind of transfer only its own frames
matter: the library does what the session does that is fed with them alone
(`run_follows`), as long as there is memory and no payload is too long.

So a stream of transfers that somebody has cut into frames is handed to the
application as it was, each transfer once and in order, whatever happens in
between (`stream_delivered`).
-/
import UavcanAdapter.Canard.Instance
import UavcanAdapter.Canard.Stream

namespace UavcanAdapter

open Base TransferCrc

/-! ## One kind of transfer -/

/-- What `should_accept` is asked about a frame. -/
def offerOf (frame : CanardCANFrame) : Offer where
  dataTypeId := extractDataType frame.id
  transferType := extractTransferType frame.id
  sourceNodeId := sourceIdFromId frame.id
  startOfTransfer := frame.data.getLast?.any isStartOfTransfer

/-- What concerns transfers with key `d` among the inputs. -/
def arrivals (d : UInt32) : List LibraryInput → List SessionInput
  | [] => []
  | .frame _ shouldAccept frame timestampUsec :: inputs =>
      if transferDescriptor frame.id = d then
        .frame frame timestampUsec (shouldAccept (offerOf frame)) :: arrivals d inputs
      else arrivals d inputs
  | .cleanup currentTimeUsec :: inputs => .cleanup currentTimeUsec :: arrivals d inputs
  | _ :: inputs => arrivals d inputs

/-- The payloads of the transfers with key `d` the application was told of. -/
def payloadsOf (d : UInt32) (receptions : List Reception) : List (List UInt8) :=
  (receptions.filter fun r => decide (r.transferDescriptor = d)).map fun r => r.transfer.payload

/-- The states and the transfer in flight are where the session is. -/
def Follows (d : UInt32) (states : List CanardRxState) (inFlight : Option Reception) (s : Session) :
    Prop :=
  match findRxState states d with
  | none => s.timestampUsec = 0 ∧ s.payloadCrc = 0
  | some st =>
      if inFlight.any fun r => decide (r.transferDescriptor = d) then
        st.bufferBlocks = [] → Represents st.waiting s
      else Represents st s

theorem Follows.congr {d : UInt32} {states states' : List CanardRxState} {r r' : Option Reception}
    {σ : Session} (h : Follows d states r σ) (hfind : findRxState states' d = findRxState states d)
    (hflight : (r'.any fun r => decide (r.transferDescriptor = d)) =
      r.any fun r => decide (r.transferDescriptor = d)) : Follows d states' r' σ := by
  rw [Follows, hfind, hflight]
  exact h

/-- An input does not take from transfers with key `d` what they need. -/
def Library.Leaves (d : UInt32) (s : Library) : LibraryInput → Prop
  | .frame _ _ frame _ => transferDescriptor frame.id = d →
      (UavcanAdapter.canardHandleRxFrame s.ins.nodeId frame).isSome ∧
      s.ins.allocator.freeList ≠ [] ∧
      ∀ st ∈ findRxState s.ins.rxStates d, st.payloadLen.toNat + 7 < 2 ^ 10
  | _ => True

instance {d : UInt32} {s : Library} : DecidablePred (s.Leaves d)
  | .frame .. => inferInstanceAs (Decidable (_ → _ ∧ _ ≠ _ ∧ _))
  | .release | .finish | .cleanup .. | .broadcast .. | .requestOrRespond .. | .pop
  | .setLocalNodeId .. => inferInstanceAs (Decidable True)

section Frames

open CanardInstance CanardRxState

variable {garbage : Garbage} {shouldAccept : Offer → Option UInt64} {ins ins' : CanardInstance}
  {frame : CanardCANFrame} {timestampUsec : UInt64} {others : List Nat} {r : Option Reception}
  {d : UInt32} {σ : Session} {offer : Offer} {nodeId : UInt8}

theorem eq_offerOf (h : UavcanAdapter.canardHandleRxFrame nodeId frame = some offer) :
    offer = offerOf frame := by
  rw [UavcanAdapter.canardHandleRxFrame] at h
  cases htail : frame.data.getLast? with
  | none =>
      rw [htail] at h
      cases h
  | some tailByte =>
      rw [htail] at h
      dsimp only at h
      by_cases hflags : frame.id &&& canardCanFrameEff = 0 ∨ frame.id &&& canardCanFrameRtr ≠ 0 ∨
          frame.id &&& canardCanFrameErr ≠ 0
      · rw [if_pos hflags] at h
        cases h
      rw [if_neg hflags] at h
      by_cases haddress : extractTransferType frame.id ≠ .broadcast ∧
          (if extractTransferType frame.id = .broadcast then canardBroadcastNodeId
            else destIdFromId frame.id) ≠ nodeId
      · rw [if_pos haddress] at h
        cases h
      rw [if_neg haddress] at h
      cases h
      rw [offerOf, htail]
      rfl

/-- A frame is ignored, or it goes to the state with its key. -/
theorem canardHandleRxFrame_cases
    (hok : ins.canardHandleRxFrame garbage shouldAccept frame timestampUsec = .ok (ins', r)) :
    (ins' = ins ∧ r = none) ∨ ∃ tailByte ins₁ st a st' transfer,
      frame.data.getLast? = some tailByte ∧
      ins.selectRxState garbage frame tailByte (shouldAccept (offerOf frame)) = some (ins₁, st) ∧
      st.handleFrame garbage ins₁.allocator frame tailByte timestampUsec =
        .ok (a, st', transfer) ∧
      ins' = { ins₁ with allocator := a, rxStates := storeRxState st' ins₁.rxStates } ∧
      r = transfer.map fun transfer =>
        { transferDescriptor := transferDescriptor frame.id, transfer } := by
  rw [CanardInstance.canardHandleRxFrame] at hok
  cases hoffer : UavcanAdapter.canardHandleRxFrame ins.nodeId frame with
  | none =>
      rw [hoffer] at hok
      cases hok
      exact Or.inl ⟨rfl, rfl⟩
  | some offer =>
  cases htail : frame.data.getLast? with
  | none =>
      rw [hoffer, htail] at hok
      cases hok
      exact Or.inl ⟨rfl, rfl⟩
  | some tailByte =>
  rw [hoffer, htail] at hok
  dsimp only at hok
  rw [eq_offerOf hoffer] at hok
  cases hselect : ins.selectRxState garbage frame tailByte (shouldAccept (offerOf frame)) with
  | none =>
      rw [hselect] at hok
      cases hok
      exact Or.inl ⟨rfl, rfl⟩
  | some p =>
      rw [hselect] at hok
      obtain ⟨⟨a, st', transfer⟩, hrun, hok⟩ := Call.bind_eq_ok.mp hok
      cases Call.pure_eq_ok.mp hok
      exact Or.inr ⟨tailByte, p.1, p.2, a, st', transfer, rfl, hselect, hrun, rfl, rfl⟩

/-- A state that has been selected takes a frame and stays where it is. -/
theorem CanardInstance.Selects.handleFrame {ins₁ : CanardInstance} {st₀ st st' : CanardRxState}
    {a : CanardPoolAllocator} {tailByte : UInt8} {transfer : Option ScatteredRxTransfer}
    (h : Selects garbage ins d ins₁ st₀) (hst : st = { st₀ with calculatedCrc := st.calculatedCrc })
    (hacc : ins.allocator.Accounts (rxOwned ins.rxStates ++ others))
    (hrun : st.handleFrame garbage ins₁.allocator frame tailByte timestampUsec =
      .ok (a, st', transfer)) :
    (∃ others, ins₁.allocator.Accounts (st.owned ++ others)) ∧ st'.dtidTtSnidDnid = d ∧
      d ∈ descriptors ins₁.rxStates := by
  obtain ⟨front, back, hins, hd, -, hacc', -⟩ := h.split hacc
  have howned : st.owned = st₀.owned := by rw [hst]; rfl
  have hd' : st.dtidTtSnidDnid = d := by rw [hst, ← hd]
  rw [← howned] at hacc'
  refine ⟨⟨_, hacc'⟩, ?_, ?_⟩
  · rcases handleFrame_spec garbage frame tailByte timestampUsec hacc' with
      ⟨-, -, -, herror⟩ | ⟨-, a₁, st₁, transfer₁, hrun₁, hslot, -⟩
    · rw [hrun] at herror
      cases herror
    · rw [hrun] at hrun₁
      cases hrun₁
      exact hslot.2.trans hd'
  · rw [hins]
    exact List.mem_map.mpr ⟨st₀, List.mem_append_right _ (List.mem_cons_self ..), hd⟩

/-- A frame of another kind changes nothing. -/
theorem findRxState_of_other (hacc : ins.allocator.Accounts (rxOwned ins.rxStates ++ others))
    (hne : transferDescriptor frame.id ≠ d)
    (hok : ins.canardHandleRxFrame garbage shouldAccept frame timestampUsec = .ok (ins', r)) :
    findRxState ins'.rxStates d = findRxState ins.rxStates d ∧
      ∀ x ∈ r, x.transferDescriptor ≠ d := by
  rcases canardHandleRxFrame_cases hok with
    ⟨rfl, rfl⟩ | ⟨tailByte, ins₁, st, a, st', transfer, -, hselect, hrun, rfl, rfl⟩
  · exact ⟨rfl, nofun⟩
  · obtain ⟨st₀, hselects, hst, -⟩ := selectRxState_spec hselect
    have hd := (hselects.handleFrame hst hacc hrun).2.1
    have hd₀ := (hselects.split hacc).choose_spec.choose_spec.2.1
    refine ⟨?_, ?_⟩
    · dsimp only
      rw [findRxState_store_ne (hd ▸ hne)]
      cases hselects with
      | found _ => rfl
      | created hnone hcreate => rw [findRxState_cons, if_neg (hd₀ ▸ hne)]
    · intro x hx
      obtain ⟨t, -, rfl⟩ := Option.map_eq_some_iff.mp hx
      exact hne

theorem traverseRxStates_eq_some (garbage : Garbage) (d : UInt32)
    (hfree : ins.allocator.freeList ≠ []) :
    ∃ p, ins.traverseRxStates garbage d = some p := by
  have hcreate : ∃ p, createRxState garbage ins.allocator d = some p := by
    cases halloc : ins.allocator.allocateBlock with
    | none => exact absurd (CanardPoolAllocator.allocateBlock_eq_none.mp halloc) hfree
    | some p => exact ⟨_, by rw [createRxState, halloc]; rfl⟩
  obtain ⟨p, hp⟩ := hcreate
  rw [traverseRxStates]
  split
  · exact ⟨_, by rw [hp]; rfl⟩
  · cases hfind : findRxState ins.rxStates d with
    | some st => exact ⟨_, rfl⟩
    | none => exact ⟨_, by rw [prependRxState, hp]; rfl⟩

/-- What has become of the state is stored, and the transfer is in flight. -/
theorem follows_of_agrees {states : List CanardRxState} {st' : CanardRxState}
    {transfer : Option ScatteredRxTransfer} {y : Session × Option (List UInt8)}
    (hmem : d ∈ descriptors states) (hd : st'.dtidTtSnidDnid = d)
    (h : Agrees (st', transfer) y) :
    Follows d (storeRxState st' states)
        (transfer.map fun transfer => { transferDescriptor := d, transfer }) y.1 ∧
      payloadsOf d (transfer.map fun transfer =>
        ({ transferDescriptor := d, transfer } : Reception)).toList = y.2.toList := by
  obtain ⟨hpayload, hfollows⟩ := h
  have hfind : findRxState (storeRxState st' states) d = some st' := by
    rw [← hd]
    exact findRxState_store_self (hd ▸ hmem)
  cases transfer with
  | none =>
      refine ⟨?_, ?_⟩
      · rw [Follows, hfind]
        exact hfollows
      · rw [← hpayload]
        rfl
  | some t =>
      refine ⟨?_, ?_⟩
      · rw [Follows, hfind]
        dsimp only
        rw [if_pos (by simp)]
        exact hfollows
      · rw [← hpayload]
        simp [payloadsOf]

/-- A frame of the transfer does to the library what it does to the session. -/
theorem follows_frame (hacc : ins.allocator.Accounts (rxOwned ins.rxStates ++ others))
    (hd : transferDescriptor frame.id = d)
    (hoffer : (UavcanAdapter.canardHandleRxFrame ins.nodeId frame).isSome)
    (hfree : ins.allocator.freeList ≠ [])
    (hroom : ∀ st ∈ findRxState ins.rxStates d, st.payloadLen.toNat + 7 < 2 ^ 10)
    (hσ : Follows d ins.rxStates none σ)
    (hok : ins.canardHandleRxFrame garbage shouldAccept frame timestampUsec = .ok (ins', r)) :
    let y := σ.feed (.frame frame timestampUsec (shouldAccept (offerOf frame)))
    Follows d ins'.rxStates r y.1 ∧ payloadsOf d r.toList = y.2.toList := by
  obtain ⟨offer, hoffer⟩ := Option.isSome_iff_exists.mp hoffer
  subst hd
  have hdone : ∀ {ins₁ : CanardInstance} {st₀ st : CanardRxState} {s₁ : Session} {tailByte : UInt8},
      Selects garbage ins (transferDescriptor frame.id) ins₁ st₀ →
      st = { st₀ with calculatedCrc := st.calculatedCrc } →
      (∀ {a st' transfer others}, ins₁.allocator.Accounts (st.owned ++ others) →
        st.handleFrame garbage ins₁.allocator frame tailByte timestampUsec =
          .ok (a, st', transfer) →
        Agrees (st', transfer) (s₁.handle frame tailByte timestampUsec)) →
      ((st.handleFrame garbage ins₁.allocator frame tailByte timestampUsec >>= fun x =>
        pure ({ ins₁ with allocator := x.1, rxStates := storeRxState x.2.1 ins₁.rxStates },
          x.2.2.map fun transfer =>
            { transferDescriptor := transferDescriptor frame.id, transfer })) :
        Call (CanardInstance × Option Reception)) = .ok (ins', r) →
      Follows (transferDescriptor frame.id) ins'.rxStates r
          (Session.handle s₁ frame tailByte timestampUsec).1 ∧
        payloadsOf (transferDescriptor frame.id) r.toList =
          (s₁.handle frame tailByte timestampUsec).2.toList := by
    intro ins₁ st₀ st s₁ tailByte hselects hst hagrees hok
    obtain ⟨⟨a, st', transfer⟩, hrun, hok⟩ := Call.bind_eq_ok.mp hok
    obtain ⟨⟨others, hacc'⟩, hd', hmem⟩ := hselects.handleFrame hst hacc hrun
    cases Call.pure_eq_ok.mp hok
    exact follows_of_agrees hmem hd' (hagrees hacc' hrun)
  have htail : ∃ tailByte, frame.data.getLast? = some tailByte := by
    cases htail : frame.data.getLast? with
    | none =>
        rw [UavcanAdapter.canardHandleRxFrame, htail] at hoffer
        cases hoffer
    | some tailByte => exact ⟨tailByte, rfl⟩
  obtain ⟨tailByte, htail⟩ := htail
  rw [CanardInstance.canardHandleRxFrame, hoffer, htail, eq_offerOf hoffer] at hok
  rw [Session.feed]
  dsimp only at hok ⊢
  rw [htail]
  dsimp only
  unfold selectRxState at hok
  by_cases hstart : isStartOfTransfer tailByte = true
  · rw [if_pos hstart] at hok ⊢
    cases haccept : shouldAccept (offerOf frame) with
    | none =>
        rw [haccept] at hok
        cases hok
        exact ⟨hσ, rfl⟩
    | some dataTypeSignature =>
        obtain ⟨⟨ins₁, st₀⟩, htraverse⟩ := traverseRxStates_eq_some garbage
          (transferDescriptor frame.id) hfree
        rw [haccept, htraverse] at hok
        have hselects := selects_of_traverseRxStates htraverse
        refine hdone hselects rfl ?_ hok
        intro a st' transfer others' hacc' hrun
        cases hselects with
        | found hfind =>
            have hroom' := hroom _ hfind
            rw [Follows, hfind] at hσ
            have hst₀ : Represents st₀ σ := hσ
            have hst : Represents
                { st₀ with calculatedCrc := crcAddSignature 0xFFFF dataTypeSignature }
                { σ with calculatedCrc := crcAddSignature 0xFFFF dataTypeSignature } :=
              ⟨⟨hst₀.holds.len, hst₀.holds.isPrefix, hst₀.holds.room⟩, hst₀.timestamp,
                hst₀.payloadCrc, rfl, hst₀.transferId, hst₀.nextToggle⟩
            rw [hst₀.holds.len] at hroom'
            exact hst.handleFrame hacc' hfree hroom' hrun
        | created hnone hcreate =>
            obtain ⟨⟨block, allocator⟩, halloc, heq⟩ := Option.map_eq_some_iff.mp hcreate
            cases heq
            rw [Follows, hnone] at hσ
            exact agrees_of_restart hacc' hσ.1.symm hσ.2.symm rfl (restartNeeded_of_eq_zero rfl)
              (restartNeeded_of_eq_zero hσ.1) hrun
  · rw [if_neg hstart] at hok ⊢
    cases hfind : findRxState ins.rxStates (transferDescriptor frame.id) with
    | none =>
        rw [hfind] at hok
        cases hok
        rw [Follows, hfind] at hσ
        rw [Session.handle, if_pos (restartNeeded_of_eq_zero hσ.1), if_pos hstart, Follows, hfind]
        exact ⟨hσ, rfl⟩
    | some st =>
        have hroom' := hroom _ hfind
        rw [hfind] at hok
        rw [Follows, hfind] at hσ
        have hst : Represents st σ := hσ
        rw [hst.holds.len] at hroom'
        exact hdone (.found hfind) rfl
          (fun hacc' hrun => hst.handleFrame hacc' hfree hroom' hrun) hok

theorem findRxState_filter {states : List CanardRxState} {keep : CanardRxState → Bool}
    (h : (descriptors states).Nodup) :
    findRxState (states.filter keep) d = (findRxState states d).filter keep := by
  induction states with
  | nil => rfl
  | cons x states ih =>
      obtain ⟨hx, hnodup⟩ := List.nodup_cons.mp h
      rw [List.filter_cons, findRxState_cons]
      by_cases hd : x.dtidTtSnidDnid = d
      · rw [if_pos hd, Option.filter]
        split
        · rw [findRxState_cons, if_pos hd]
        · rw [ih hnodup, ← hd, findRxState_eq_none.mpr hx]
          rfl
      · rw [if_neg hd, ← ih hnodup]
        split
        · rw [findRxState_cons, if_neg hd]
        · rfl

/-- A session is stale iff its state is. -/
theorem follows_cleanup {states : List CanardRxState} {now : UInt64}
    (h : (descriptors states).Nodup) (hσ : Follows d states none σ) :
    Follows d (states.filter fun st => !decide (now - st.timestampUsec > transferTimeoutUsec)) none
      (σ.feed (.cleanup now)).1 := by
  rw [Follows, findRxState_filter h]
  rw [Follows] at hσ
  rw [Session.feed]
  dsimp only
  cases hfind : findRxState states d with
  | none =>
      rw [hfind] at hσ
      by_cases hstale : now - σ.timestampUsec > transferTimeoutUsec
      · rw [if_pos hstale]
        exact ⟨rfl, rfl⟩
      · rw [if_neg hstale]
        exact hσ
  | some st =>
      rw [hfind] at hσ
      have hst : Represents st σ := hσ
      rw [← hst.timestamp, Option.filter]
      by_cases hstale : now - st.timestampUsec > transferTimeoutUsec
      · rw [decide_eq_true hstale, if_pos hstale]
        exact ⟨rfl, rfl⟩
      · rw [decide_eq_false hstale, if_neg hstale]
        exact hst

/-- The application returns only where the state has no payload of its own. -/
theorem finishReception_eq_ok {r : Reception} (hok : ins.finishReception r = .ok ins') :
    ∃ st, findRxState ins.rxStates r.transferDescriptor = some st ∧ st.bufferBlocks = [] ∧
      ins'.rxStates = storeRxState st.waiting ins.rxStates := by
  obtain ⟨⟨ins₁, transfer⟩, hrelease, hok⟩ := Call.bind_eq_ok.mp hok
  obtain ⟨a, -, hrelease⟩ := Call.bind_eq_ok.mp hrelease
  cases Call.pure_eq_ok.mp hrelease
  dsimp only at hok
  cases hfind : findRxState ins.rxStates r.transferDescriptor with
  | none =>
      rw [hfind] at hok
      cases hok
  | some st =>
      rw [hfind] at hok
      obtain ⟨st', hprepare, hok⟩ := Call.bind_eq_ok.mp hok
      cases Call.pure_eq_ok.mp hok
      by_cases hnil : st.bufferBlocks = []
      · rw [prepareForNextTransfer_of_nil hnil] at hprepare
        cases hprepare
        exact ⟨st, rfl, hnil, rfl⟩
      · rw [prepareForNextTransfer_of_ne_nil hnil] at hprepare
        cases hprepare

end Frames

/-! ## Whole runs -/

namespace Library

open CanardInstance

section Runs

variable {s s' : Library} {input : LibraryInput} {inputs : List LibraryInput} {d : UInt32}
  {σ : Session} {t : TxTransfer}

/-- The states, the transfers told of and the one in flight are the same. -/
def SameReception (s s' : Library) : Prop :=
  s'.ins.rxStates = s.ins.rxStates ∧ s'.delivered = s.delivered ∧
    s'.inFlight.map Reception.transferDescriptor = s.inFlight.map Reception.transferDescriptor

theorem SameReception.follows (h : SameReception s s')
    (hσ : Follows d s.ins.rxStates s.inFlight σ) :
    Follows d s'.ins.rxStates s'.inFlight σ ∧
      payloadsOf d s'.delivered = payloadsOf d s.delivered ++ [] := by
  obtain ⟨hstates, hdelivered, hflight⟩ := h
  have hany : ∀ r : Option Reception, (r.any fun r => decide (r.transferDescriptor = d)) =
      (r.map Reception.transferDescriptor).any fun x => decide (x = d) := by
    intro r
    cases r <;> rfl
  refine ⟨hσ.congr (by rw [hstates]) ?_, ?_⟩
  · rw [hany, hflight, ← hany]
  · rw [hdelivered, List.append_nil]

/-- What the application does besides receiving leaves the reception alone. -/
theorem sameReception_of_step (hok : s.step input = .ok s')
    (hinput : match input with
      | .frame .. | .finish | .cleanup .. => False
      | _ => True) : SameReception s s' := by
  cases input with
  | frame garbage shouldAccept frame timestampUsec => exact hinput.elim
  | finish => exact hinput.elim
  | cleanup currentTimeUsec => exact hinput.elim
  | release =>
      rw [step] at hok
      cases hflight : s.inFlight with
      | none =>
          rw [hflight] at hok
          cases hok
          exact ⟨rfl, rfl, rfl⟩
      | some r =>
          rw [hflight] at hok
          obtain ⟨⟨ins, transfer⟩, hrelease, hok⟩ := Call.bind_eq_ok.mp hok
          obtain ⟨a, -, hrelease⟩ := Call.bind_eq_ok.mp hrelease
          cases Call.pure_eq_ok.mp hrelease
          cases Call.pure_eq_ok.mp hok
          exact ⟨rfl, rfl, by rw [hflight]; rfl⟩
  | broadcast =>
      obtain ⟨⟨ins, x⟩, hsend, hok⟩ := Call.bind_eq_ok.mp hok
      cases Call.pure_eq_ok.mp hok
      exact ⟨(same_of_canardBroadcast hsend).2, rfl, rfl⟩
  | requestOrRespond =>
      obtain ⟨⟨ins, x⟩, hsend, hok⟩ := Call.bind_eq_ok.mp hok
      cases Call.pure_eq_ok.mp hok
      exact ⟨(same_of_canardRequestOrRespond hsend).2, rfl, rfl⟩
  | pop =>
      obtain ⟨ins, hpop, hok⟩ := Call.bind_eq_ok.mp hok
      cases Call.pure_eq_ok.mp hok
      exact ⟨(same_of_canardPopTxQueue hpop).2, rfl, rfl⟩
  | setLocalNodeId selfNodeId =>
      obtain ⟨ins, hset, hok⟩ := Call.bind_eq_ok.mp hok
      obtain ⟨u, -, hset⟩ := Call.bind_eq_ok.mp hset
      cases Call.pure_eq_ok.mp hset
      cases Call.pure_eq_ok.mp hok
      exact ⟨rfl, rfl, rfl⟩

theorem payloadsOf_append (xs ys : List Reception) :
    payloadsOf d (xs ++ ys) = payloadsOf d xs ++ payloadsOf d ys := by
  rw [payloadsOf, List.filter_append, List.map_append]
  rfl

/-- One input: the library stays where the session is that gets the frames of
the transfers with key `d`. -/
theorem step_follows (hs : s.Sound) (ha : s.Allowed input) (hleaves : s.Leaves d input)
    (hσ : Follows d s.ins.rxStates s.inFlight σ) (hok : s.step input = .ok s') :
    Follows d s'.ins.rxStates s'.inFlight (σ.feedAll (arrivals d [input])).1 ∧
      payloadsOf d s'.delivered =
        payloadsOf d s.delivered ++ (σ.feedAll (arrivals d [input])).2 := by
  cases input with
  | frame garbage shouldAccept frame timestampUsec =>
      have hacc := hs.accounts
      rw [owned] at hacc
      obtain ⟨⟨ins', r⟩, hrun, hok⟩ := Call.bind_eq_ok.mp hok
      cases Call.pure_eq_ok.mp hok
      have hnone : s.inFlight = none := Option.isNone_iff_eq_none.mp ha
      rw [hnone] at hσ
      rw [arrivals, arrivals, payloadsOf_append]
      by_cases hd : transferDescriptor frame.id = d
      · obtain ⟨hoffer, hfree, hroom⟩ := hleaves hd
        obtain ⟨hfollows, hpayloads⟩ := follows_frame hacc hd hoffer hfree hroom hσ hrun
        rw [if_pos hd, hpayloads, Session.feedAll, Session.feedAll, List.append_nil]
        exact ⟨hfollows, rfl⟩
      · obtain ⟨hfind, hother⟩ := findRxState_of_other hacc hd hrun
        have hnone : payloadsOf d r.toList = [] := by
          cases r with
          | none => rfl
          | some x => simp [payloadsOf, hother x rfl]
        rw [if_neg hd, Session.feedAll, hnone]
        refine ⟨hσ.congr hfind ?_, rfl⟩
        cases r with
        | none => rfl
        | some x => exact decide_eq_false (hother x rfl)
  | finish =>
      obtain ⟨r, hflight⟩ := Option.isSome_iff_exists.mp ha
      rw [step, hflight] at hok
      obtain ⟨ins', hfinish, hok⟩ := Call.bind_eq_ok.mp hok
      cases Call.pure_eq_ok.mp hok
      obtain ⟨st, hfind, hnil, hstates⟩ := finishReception_eq_ok hfinish
      refine ⟨?_, (List.append_nil _).symm⟩
      change Follows d ins'.rxStates none σ
      rw [hstates]
      rw [hflight] at hσ
      by_cases hd : r.transferDescriptor = d
      · have hst : Represents st.waiting σ := by
          rw [Follows, ← hd, hfind] at hσ
          dsimp only at hσ
          rw [if_pos (by simp)] at hσ
          exact hσ hnil
        have hkey : st.waiting.dtidTtSnidDnid = d := by
          obtain ⟨front, back, -, hkey, -⟩ := findRxState_eq_some hfind
          exact hkey.trans hd
        have hmem : d ∈ descriptors s.ins.rxStates := by
          rw [← not_not (a := d ∈ _), ← findRxState_eq_none, ← hd, hfind]
          exact Option.some_ne_none st
        rw [Follows, ← hkey, findRxState_store_self (hkey ▸ hmem)]
        exact hst
      · have hkey : st.waiting.dtidTtSnidDnid ≠ d := by
          obtain ⟨front, back, -, hkey, -⟩ := findRxState_eq_some hfind
          exact fun h => hd (hkey.symm.trans h)
        exact hσ.congr (findRxState_store_ne hkey) (decide_eq_false hd).symm
  | cleanup currentTimeUsec =>
      obtain ⟨a, hrun, -⟩ := cleanupLoop_spec currentTimeUsec hs.accounts
      obtain ⟨ins, hcleanup, hok⟩ := Call.bind_eq_ok.mp hok
      rw [canardCleanupStaleTransfers, hrun, Call.ok_bind] at hcleanup
      cases Call.pure_eq_ok.mp hcleanup
      cases Call.pure_eq_ok.mp hok
      rw [Option.isNone_iff_eq_none.mp ha] at hσ ⊢
      exact ⟨follows_cleanup hs.distinct hσ, (List.append_nil _).symm⟩
  | release => exact (sameReception_of_step hok trivial).follows hσ
  | broadcast => exact (sameReception_of_step hok trivial).follows hσ
  | requestOrRespond => exact (sameReception_of_step hok trivial).follows hσ
  | pop => exact (sameReception_of_step hok trivial).follows hσ
  | setLocalNodeId => exact (sameReception_of_step hok trivial).follows hσ

/-- Any run in which the transfers with key `d` get what they need. -/
theorem run_follows (hs : s.Sound)
    (h : (library.restrict fun s input _ => s.Leaves d input).Run s inputs s')
    (hσ : Follows d s.ins.rxStates s.inFlight σ) :
    Follows d s'.ins.rxStates s'.inFlight (σ.feedAll (arrivals d inputs)).1 ∧
      payloadsOf d s'.delivered =
        payloadsOf d s.delivered ++ (σ.feedAll (arrivals d inputs)).2 := by
  induction h generalizing σ with
  | nil => exact ⟨hσ, (List.append_nil _).symm⟩
  | @cons s s₁ s' input inputs hst _ ih =>
      obtain ⟨⟨hstep, ha⟩, hleaves⟩ := hst
      obtain ⟨hσ₁, hpayloads⟩ := step_follows hs ha hleaves hσ hstep
      obtain ⟨hσ', hpayloads'⟩ := ih (hs.of_step ha hstep) hσ₁
      have hsplit : arrivals d (input :: inputs) = arrivals d [input] ++ arrivals d inputs := by
        cases input with
        | frame garbage shouldAccept frame timestampUsec =>
            rw [arrivals, arrivals, arrivals]
            split <;> rfl
        | _ => rfl
      rw [hsplit, Session.feedAll_append, hpayloads', hpayloads, List.append_assoc]
      exact ⟨hσ', rfl⟩

theorem follows_init (d : UInt32) (memArenaSize : Nat) :
    Follows d (canardInit memArenaSize).rxStates none {} := ⟨rfl, rfl⟩

/-- What the application is told of transfers of one kind depends on their own
frames only, and is what the session hears. -/
theorem delivered_eq_feedAll {memArenaSize : Nat}
    (h : (library.restrict fun s input _ => s.Leaves d input).Run
      { ins := canardInit memArenaSize } inputs s) :
    payloadsOf d s.delivered = (({} : Session).feedAll (arrivals d inputs)).2 :=
  (run_follows (sound_init memArenaSize) h (follows_init d memArenaSize)).2

/-- A stream of transfers of one kind, with one transfer ID after the other,
reaches the application without what has been damaged, each transfer once and
in order, whatever else the library does meanwhile. -/
theorem stream_delivered {memArenaSize : Nat} {dataTypeSignature : UInt64} {k : BitVec 5}
    {ts : List TxTransfer} (hids : Consecutive k ts)
    (hstream : TransferStream dataTypeSignature ts (arrivals d inputs))
    (h : (library.restrict fun s input _ => s.Leaves d input).Run
      { ins := canardInit memArenaSize } inputs s) :
    payloadsOf d s.delivered = ts.flatMap (TxTransfer.heard dataTypeSignature) := by
  have hpayloads := (run_follows (sound_init memArenaSize) h (follows_init d memArenaSize)).2
  rw [hpayloads, Session.feedAll_stream ⟨⟨rfl, rfl⟩, Or.inl rfl⟩ hids hstream]
  rfl

/-- What is damaged on the bus within sixteen consecutive bits is not delivered,
and what is not damaged is. -/
theorem intact_delivered {memArenaSize : Nat} {dataTypeSignature : UInt64} {k : BitVec 5}
    {ts : List TxTransfer} (sent : TxTransfer → List UInt8) (hids : Consecutive k ts)
    (hstream : TransferStream dataTypeSignature ts (arrivals d inputs))
    (hcrc : ∀ t ∈ ts, t.crc = payloadCrc dataTypeSignature (sent t))
    (hlen : ∀ t ∈ ts, t.payload.length = (sent t).length)
    (hlong : ∀ t ∈ ts, t.payload ≠ sent t → canardCanFrameMaxDataLen ≤ (sent t).length)
    (hburst : ∀ t ∈ ts, ∃ k, ∀ i,
      (bitString t.payload)[i]? ≠ (bitString (sent t))[i]? → k ≤ i ∧ i < k + 16)
    (h : (library.restrict fun s input _ => s.Leaves d input).Run
      { ins := canardInit memArenaSize } inputs s) :
    payloadsOf d s.delivered = (ts.filter fun t => decide (t.payload = sent t)).map sent := by
  have hpayloads := (run_follows (sound_init memArenaSize) h (follows_init d memArenaSize)).2
  have hheard : ∀ t ∈ ts, t.heard dataTypeSignature =
      if t.payload = sent t then [sent t] else [] := by
    intro t ht
    obtain ⟨j, hburst⟩ := hburst t ht
    exact heard_of_burst (hcrc t ht) (hlen t ht) (hlong t ht) hburst
  rw [hpayloads, Session.feedAll_stream ⟨⟨rfl, rfl⟩, Or.inl rfl⟩ hids hstream,
    List.flatMap_congr hheard]
  clear hids hstream hcrc hlen hlong hburst hheard
  change ts.flatMap (fun t => if t.payload = sent t then [sent t] else []) = _
  induction ts with
  | nil => rfl
  | cons t ts ih =>
      rw [List.flatMap_cons, List.filter_cons, ih]
      by_cases hsame : t.payload = sent t
      · rw [if_pos hsame, if_pos (decide_eq_true hsame)]
        rfl
      · rw [if_neg hsame, if_neg (by simpa using hsame)]
        rfl

/-- A state between two transfers, and how it stands with transfer `t` that
begins now. -/
def Misses (s : Library) (d : UInt32) (t : TxTransfer) (startUsec : UInt64) : Prop :=
  ∃ st ∈ findRxState s.ins.rxStates d, st.timestampUsec ≠ 0 ∧
    startUsec - st.timestampUsec ≤ transferTimeoutUsec ∧ t.tid = st.transferId + 1

instance {s : Library} {startUsec : UInt64} : Decidable (s.Misses d t startUsec) :=
  inferInstanceAs (Decidable (∃ st ∈ findRxState s.ins.rxStates d, _ ∧ _ ∧ _))

end Runs

/-! ## Two messages between those of another node -/

/-- The inputs are taken one after the other, as long as they are allowed and
good. -/
def runIf (good : Library → LibraryInput → Prop) [∀ s input, Decidable (good s input)]
    (s : Library) (inputs : List LibraryInput) : Call Library :=
  inputs.foldlM (fun s input =>
    if s.Allowed input = true ∧ good s input then s.step input else .error .hang) s

theorem run_of_runIf {good : Library → LibraryInput → Prop}
    [∀ s input, Decidable (good s input)] {s s' : Library} {inputs : List LibraryInput}
    (h : s.runIf good inputs = .ok s') :
    (library.restrict fun s input _ => good s input).Run s inputs s' := by
  rw [runIf] at h
  exact (Machine.run_of_foldlM _ Halt.hang h).restrict_and

def heardFrame (frame : CanardCANFrame) (timestampUsec : UInt64) : LibraryInput :=
  .frame (fun _ _ => 0) (fun _ => some 7) frame timestampUsec

/-- A message of two frames and one of a single frame. -/
def sentMessages (payload : List UInt8) : List TxTransfer :=
  [{ longMessage 3 with payload },
    { canId := messageId 4 100 5, transferId := 4, crc := 0xFFFF, payload := [9] }]

/-- The messages with a message of node 6 and a cleanup between them.  `finish`
is what the application does at the end of the first one. -/
def interleaved (payload : List UInt8) (finish : List LibraryInput) : List LibraryInput :=
  [heardFrame (({ longMessage 3 with payload }).multi 0) 10,
    heardFrame (.compose (messageId 4 100 6) [1] 0xC0) 11, .finish,
    heardFrame (({ longMessage 3 with payload }).multi 1) 20] ++ finish ++
  [.cleanup 4000000,
    heardFrame (.compose (messageId 4 100 5) [9] (tailByte 0xC0 false 4)) 5000000, .finish]

theorem arrivals_interleaved {payload : List UInt8} {finish : List LibraryInput}
    (hfinish : finish = [] ∨ finish = [.finish]) :
    arrivals (transferDescriptor (messageId 4 100 5)) (interleaved payload finish) =
      [.frame (({ longMessage 3 with payload }).multi 0) 10 (some 7),
        .frame (({ longMessage 3 with payload }).multi 1) 20 (some 7), .cleanup 4000000,
        .frame (.compose (messageId 4 100 5) [9] (tailByte 0xC0 false 4)) 5000000 (some 7)] := by
  have hmine : ∀ i, transferDescriptor (({ longMessage 3 with payload }).multi i).id =
      transferDescriptor (messageId 4 100 5) := by
    intro i
    change transferDescriptor (messageId 4 100 5 ||| canardCanFrameEff) = _
    decide
  have hother : transferDescriptor (messageId 4 100 6 ||| canardCanFrameEff) ≠
      transferDescriptor (messageId 4 100 5) := by
    decide
  have hlast : transferDescriptor (messageId 4 100 5 ||| canardCanFrameEff) =
      transferDescriptor (messageId 4 100 5) := by
    decide
  rcases hfinish with rfl | rfl <;>
    simp [interleaved, arrivals, heardFrame, hmine, CanardCANFrame.compose, hother, hlast]

theorem stream_interleaved {payload : List UInt8} {finish : List LibraryInput}
    (hlen : payload.length = 12) (hfinish : finish = [] ∨ finish = [.finish]) :
    TransferStream 7 (sentMessages payload)
      (arrivals (transferDescriptor (messageId 4 100 5)) (interleaved payload finish)) := by
  let long : TxTransfer := { longMessage 3 with payload }
  have hlong : 8 ≤ long.payload.length := by
    rw [show long.payload.length = 12 from hlen]
    decide
  have hcount : long.count = 2 := by
    rw [TxTransfer.count, show long.payload.length = 12 from hlen]
    rfl
  have hframes : long.frames = [long.multi 0, long.multi 1] := by
    rw [Session.frames_eq_cons hlong, hcount]
    rfl
  have hin : InTime 10 [long.multi 1] [.frame (long.multi 1) 20 (some 7)] :=
    .frame (by decide) .nil
  have hshort : TransferStream 7
      [{ canId := messageId 4 100 5, transferId := 4, crc := 0xFFFF, payload := [9] }]
      [.frame (.compose (messageId 4 100 5) [9] (tailByte 0xC0 false 4)) 5000000 (some 7)] :=
    have hnil : InTime 5000000 [] [] := .nil
    .transfer rfl (by decide) hnil .nil
  rw [arrivals_interleaved hfinish]
  exact .transfer hframes (by decide) hin (.cleanup hshort)

theorem consecutive_sentMessages {payload : List UInt8} : Consecutive 3 (sentMessages payload) :=
  ⟨rfl, rfl, trivial⟩

theorem stream_delivered_interleaved : ∃ s, library.Reachable s ∧
    payloadsOf (transferDescriptor (messageId 4 100 5)) s.delivered =
      [List.replicate 12 1, [9]] := by
  have hrun : Call.ReturnsWith (runIf (Leaves (transferDescriptor (messageId 4 100 5)))
      { ins := canardInit 128 } (interleaved (List.replicate 12 1) [.finish])) fun _ => True := by
    decide +kernel
  have hheard : (sentMessages (List.replicate 12 1)).flatMap (TxTransfer.heard 7) =
      [List.replicate 12 1, [9]] := by
    decide +kernel
  obtain ⟨s, hs, -⟩ := hrun
  have h := run_of_runIf hs
  exact ⟨s, h.of_restrict.reachable (.init ⟨128, rfl⟩),
    (stream_delivered consecutive_sentMessages (stream_interleaved rfl (Or.inr rfl)) h).trans
      hheard⟩

theorem delivered_eq_feedAll_interleaved : ∃ s, library.Reachable s ∧
    payloadsOf (transferDescriptor (messageId 4 100 5)) s.delivered =
      (({} : Session).feedAll (arrivals (transferDescriptor (messageId 4 100 5))
        (interleaved (List.replicate 12 1) [.finish]))).2 := by
  have hrun : Call.ReturnsWith (runIf (Leaves (transferDescriptor (messageId 4 100 5)))
      { ins := canardInit 128 } (interleaved (List.replicate 12 1) [.finish])) fun _ => True := by
    decide +kernel
  obtain ⟨s, hs, -⟩ := hrun
  have h := run_of_runIf hs
  exact ⟨s, h.of_restrict.reachable (.init ⟨128, rfl⟩), delivered_eq_feedAll h⟩

/-- The first byte of the long message is damaged. -/
theorem intact_delivered_damaged : ∃ s, library.Reachable s ∧
    payloadsOf (transferDescriptor (messageId 4 100 5)) s.delivered = [[9]] := by
  have hrun : Call.ReturnsWith (runIf (Leaves (transferDescriptor (messageId 4 100 5)))
      { ins := canardInit 128 } (interleaved (2 :: List.replicate 11 1) [])) fun _ => True := by
    decide +kernel
  have hburst : ∀ i, (bitString (2 :: List.replicate 11 1))[i]? ≠
      (bitString (List.replicate 12 1))[i]? → 0 ≤ i ∧ i < 0 + 16 := by
    intro i hi
    refine ⟨Nat.zero_le i, not_le.mp fun hle => hi ?_⟩
    have hlen : ∀ b, (byteBits b).length ≤ i := fun b => by
      rw [length_byteBits]
      omega
    have htwelve : List.replicate 12 (1 : UInt8) = 1 :: List.replicate 11 1 := rfl
    rw [htwelve, bitString_cons, bitString_cons, List.getElem?_append_right (hlen _),
      List.getElem?_append_right (hlen _), length_byteBits, length_byteBits]
  obtain ⟨s, hs, -⟩ := hrun
  have h := run_of_runIf hs
  refine ⟨s, h.of_restrict.reachable (.init ⟨128, rfl⟩),
    (intact_delivered (fun t => if t.payload = [9] then [9] else List.replicate 12 1)
      consecutive_sentMessages (stream_interleaved rfl (Or.inl rfl)) ?_ ?_ ?_ ?_ h).trans rfl⟩
  · decide +kernel
  · decide +kernel
  · refine List.forall_mem_cons.mpr ⟨fun _ => by decide, List.forall_mem_cons.mpr ⟨?_, nofun⟩⟩
    exact fun hne => absurd rfl hne
  · refine List.forall_mem_cons.mpr ⟨⟨0, hburst⟩, List.forall_mem_cons.mpr ⟨⟨0, ?_⟩, nofun⟩⟩
    exact fun i hne => absurd rfl hne

end Library

end UavcanAdapter
