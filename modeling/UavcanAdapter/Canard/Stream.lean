/-
# `Canard.Stream` — transfers as a session hears them

A sender cuts transfers into frames (`transferFrames`); here the frames come to
a session one after the other, with cleanups in between.

A transfer that is complete and in time is heard as it was sent, unless exactly
one transfer before it was lost (`feedAll_transfer`): the session takes the
next transfer ID for a repetition and waits for the one that does not come any
more.  A stream of transfers with one ID after the other is heard in full, and
in order (`feedAll_stream`).
-/
import UavcanAdapter.Canard.Session
import UavcanAdapter.Canard.Transmission

namespace UavcanAdapter

open Base TransferCrc

/-! ## Transfers on their way -/

namespace TxTransfer

/-- The transfer ID as it is in the tail bytes. -/
def tid (t : TxTransfer) : BitVec 5 := BitVec.ofNat 5 t.transferId.toNat

/-- Frame `i` of several. -/
def multi (t : TxTransfer) (i : Nat) : CanardCANFrame :=
  multiFrame t.canId t.transferId t.crc t.payload i

/-- The number of frames of a transfer that needs several. -/
def count (t : TxTransfer) : Nat := frameCount t.payload.length

/-- The tail byte of frame `i` of several. -/
def tail (t : TxTransfer) (i : Nat) : UInt8 :=
  tailByte (sotEotOf t.count i) (decide (i % 2 = 1)) t.transferId

/-- What is heard of a transfer: its payload, if the CRC is right or there is
none. -/
def heard (dataTypeSignature : UInt64) (t : TxTransfer) : List (List UInt8) :=
  if canardCanFrameMaxDataLen ≤ t.payload.length ∧
    transferCrc dataTypeSignature t.payload ≠ t.crc then [] else [t.payload]

end TxTransfer

/-- Frames that come one after the other, none of them later than two seconds
after `startUsec`, with cleanups in between. -/
inductive InTime (startUsec : UInt64) : List CanardCANFrame → List SessionInput → Prop
  | nil : InTime startUsec [] []
  | frame {frame : CanardCANFrame} {frames : List CanardCANFrame} {inputs : List SessionInput}
      {timestampUsec : UInt64} {accepted : Option UInt64} :
      timestampUsec - startUsec ≤ transferTimeoutUsec → InTime startUsec frames inputs →
      InTime startUsec (frame :: frames) (.frame frame timestampUsec accepted :: inputs)
  | cleanup {frames : List CanardCANFrame} {inputs : List SessionInput} {now : UInt64} :
      now - startUsec ≤ transferTimeoutUsec → InTime startUsec frames inputs →
      InTime startUsec frames (.cleanup now :: inputs)

/-- Transfers that come one after the other, each of them in time, with
cleanups at any time in between. -/
inductive TransferStream (dataTypeSignature : UInt64) : List TxTransfer → List SessionInput → Prop
  | nil : TransferStream dataTypeSignature [] []
  | cleanup {ts : List TxTransfer} {inputs : List SessionInput} {now : UInt64} :
      TransferStream dataTypeSignature ts inputs →
      TransferStream dataTypeSignature ts (.cleanup now :: inputs)
  | transfer {t : TxTransfer} {ts : List TxTransfer} {first : CanardCANFrame}
      {frames : List CanardCANFrame} {startUsec : UInt64} {rest inputs : List SessionInput} :
      t.frames = first :: frames → startUsec ≠ 0 → InTime startUsec frames rest →
      TransferStream dataTypeSignature ts inputs →
      TransferStream dataTypeSignature (t :: ts)
        (.frame first startUsec (some dataTypeSignature) :: (rest ++ inputs))

/-- The transfer IDs follow one another, from `k` on. -/
def Consecutive : BitVec 5 → List TxTransfer → Prop
  | _, [] => True
  | k, t :: ts => t.tid = k ∧ Consecutive (k + 1) ts

/-- A message of two frames. -/
def longMessage (transferId : UInt8) : TxTransfer where
  canId := messageId 4 100 5
  transferId
  crc := transferCrc 7 (List.replicate 12 1)
  payload := List.replicate 12 1

/-! ## Bytes on their way -/

/-- The CRC is read as it was written. -/
theorem crc_of_crcBytes (crc : UInt16) :
    crc.toUInt8.toUInt16 ||| ((crc >>> 8).toUInt8.toUInt16 <<< 8) = crc := by
  have hlt := crc.toNat_lt
  have hlow : crc.toUInt8.toUInt16.toNat = crc.toNat % 2 ^ 8 := by
    rw [UInt8.toNat_toUInt16, UInt16.toNat_toUInt8]
  have hshift : (crc >>> 8).toNat = crc.toNat / 2 ^ 8 := by
    rw [UInt16.toNat_shiftRight, Nat.shiftRight_eq_div_pow]
    rfl
  have hhigh : ((crc >>> 8).toUInt8.toUInt16 <<< 8).toNat = (crc.toNat / 2 ^ 8) <<< 8 := by
    rw [UInt16.toNat_shiftLeft, UInt8.toNat_toUInt16, UInt16.toNat_toUInt8, hshift,
      show UInt16.toNat 8 % 16 = 8 from rfl, Nat.shiftLeft_eq, Nat.shiftLeft_eq]
    omega
  rw [← UInt16.toNat_inj, UInt16.toNat_or, hlow, hhigh, Nat.or_comm,
    ← Nat.shiftLeft_add_eq_or_of_lt (Nat.mod_lt _ (by decide)), Nat.shiftLeft_eq]
  omega

section Frames

variable {t : TxTransfer} {i k : Nat} {canId : UInt32} {bytes : List UInt8} {tail : UInt8}

theorem getLast_compose : (CanardCANFrame.compose canId bytes tail).data.getLast? = some tail :=
  List.getLast?_concat

theorem dropLast_compose : (CanardCANFrame.compose canId bytes tail).data.dropLast = bytes.take 7 :=
  List.dropLast_concat

theorem toNat_transferId_and : (t.transferId &&& 31).toNat = t.tid.toNat := by
  rw [UInt8.toNat_and, TxTransfer.tid, BitVec.toNat_ofNat]
  exact Nat.and_two_pow_sub_one_eq_mod _ 5

theorem sotEotOf_cases (n i : Nat) :
    sotEotOf n i = 0xC0 ∨ sotEotOf n i = 0x80 ∨ sotEotOf n i = 0x40 ∨ sotEotOf n i = 0 := by
  rw [sotEotOf]
  split
  · exact Or.inr (Or.inr (Or.inl rfl))
  · split
    · exact Or.inr (Or.inl rfl)
    · exact Or.inr (Or.inr (Or.inr rfl))

/-- The tail byte tells the place of its frame. -/
theorem fields_tail (hlen : canardCanFrameMaxDataLen ≤ t.payload.length) :
    (transferIdFromTailByte (t.tail i)).toNat = t.tid.toNat ∧
    toggleBit (t.tail i) = decide (i % 2 = 1) ∧
    isStartOfTransfer (t.tail i) = decide (i = 0) ∧
    isEndOfTransfer (t.tail i) = decide (i + 1 = t.count) := by
  have hcount : t.count = (t.payload.length + 8) / 7 := rfl
  have hn : 8 ≤ t.payload.length := hlen
  obtain ⟨hid, htoggle, hstart, hend⟩ := fields_tailByte (decide (i % 2 = 1)) t.transferId
    (sotEotOf_cases t.count i)
  refine ⟨(congrArg _ hid).trans toNat_transferId_and, htoggle, hstart.trans ?_, hend.trans ?_⟩
  · rw [sotEotOf, decide_eq_decide]
    split
    · exact iff_of_false (by decide) (by omega)
    · split
      · exact iff_of_true (Or.inr rfl) ‹_›
      · exact iff_of_false (by decide) ‹_›
  · rw [sotEotOf, decide_eq_decide]
    split
    · exact iff_of_true (Or.inr rfl) ‹_›
    · split
      · exact iff_of_false (by decide) ‹_›
      · exact iff_of_false (by decide) ‹_›

/-- The payload bytes in front of frame `i`. -/
def TxTransfer.sentBefore (t : TxTransfer) (i : Nat) : List UInt8 := t.payload.take (7 * i - 2)

/-- What has been received and what comes with frame `k`. -/
theorem sentBefore_append (hk : 0 < k) :
    t.sentBefore k ++ (t.multi k).data.dropLast = t.sentBefore (k + 1) := by
  have hcrc : (crcBytes t.crc).length = 2 := rfl
  have hdrop : (crcBytes t.crc).drop (7 * k) = [] := List.drop_eq_nil_of_le (by omega)
  rw [TxTransfer.multi, multiFrame, dropLast_compose, slice, List.take_take, min_self,
    List.drop_append, hdrop, List.nil_append, hcrc, TxTransfer.sentBefore, TxTransfer.sentBefore,
    ← List.take_add]
  congr 1
  omega

theorem multi_zero_bytes : (t.multi 0).data.dropLast = crcBytes t.crc ++ t.sentBefore 1 := by
  rw [TxTransfer.multi, multiFrame, dropLast_compose, slice_zero, List.take_take, min_self,
    List.take_append]
  rfl

theorem sentBefore_count (hlen : canardCanFrameMaxDataLen ≤ t.payload.length) :
    t.sentBefore t.count = t.payload := by
  have hcount : t.count = (t.payload.length + 8) / 7 := rfl
  have hn : 8 ≤ t.payload.length := hlen
  exact List.take_of_length_le (by omega)

theorem frames_of_le (hlen : canardCanFrameMaxDataLen ≤ t.payload.length) :
    t.frames = (List.range' 0 t.count).map t.multi := by
  rw [TxTransfer.frames, transferFrames, if_neg (not_lt.mpr hlen), List.range_eq_range']
  rfl

theorem getLast_multi : (t.multi i).data.getLast? = some (t.tail i) := getLast_compose

theorem multi_zero_data : (t.multi 0).data =
    t.crc.toUInt8 :: (t.crc >>> 8).toUInt8 :: (t.sentBefore 1 ++ [t.tail 0]) := by
  have hsplit := List.dropLast_append_getLast? (t.tail 0) (getLast_multi (t := t))
  rw [multi_zero_bytes] at hsplit
  exact hsplit.symm

end Frames

/-! ## A session hears a transfer -/

namespace Session

/-- The session is between two transfers. -/
structure Idle (s : Session) : Prop where
  bytes : s.bytes = []
  nextToggle : s.nextToggle = false

/-- The session has heard the first `k` frames of a transfer. -/
structure InProgress (dataTypeSignature startUsec : UInt64) (t : TxTransfer) (k : Nat)
    (s : Session) : Prop where
  timestamp : s.timestampUsec = startUsec
  payloadCrc : s.payloadCrc = t.crc
  calculatedCrc : s.calculatedCrc = transferCrc dataTypeSignature (t.sentBefore k)
  bytes : s.bytes = t.sentBefore k
  transferId : s.transferId = t.tid
  nextToggle : s.nextToggle = decide (k % 2 = 1)

section Hearing

variable {s : Session} {t : TxTransfer} {ts : List TxTransfer} {k : Nat}
  {dataTypeSignature startUsec timestampUsec now : UInt64} {accepted : Option UInt64}
  {frame : CanardCANFrame} {frames : List CanardCANFrame} {inputs : List SessionInput}
  {tailByte : UInt8}

theorem restartNeeded_of_not_start {transferId : BitVec 5}
    (hstart : isStartOfTransfer tailByte = false) :
    restartNeeded startUsec transferId tailByte timestampUsec =
      decide (startUsec = 0 ∨ timestampUsec - startUsec > transferTimeoutUsec) := by
  rw [restartNeeded, hstart]
  simp

theorem feed_of_not_start (htail : frame.data.getLast? = some tailByte)
    (hstart : isStartOfTransfer tailByte = false) :
    s.feed (.frame frame timestampUsec accepted) = s.handle frame tailByte timestampUsec := by
  rw [feed, htail]
  dsimp only
  rw [hstart, if_neg (by decide)]

theorem handle_of_goes_on
    (h : restartNeeded s.timestampUsec s.transferId tailByte timestampUsec = false) :
    s.handle frame tailByte timestampUsec = s.store frame tailByte timestampUsec := by
  rw [handle, h, if_neg (by decide)]

/-- A frame that is not for the transfer in progress changes nothing. -/
theorem store_ignored
    (hsingle : isEndOfTransfer tailByte = false ∨ isStartOfTransfer tailByte = false)
    (h : toggleBit tailByte ≠ s.nextToggle ∨
      (transferIdFromTailByte tailByte).toNat ≠ s.transferId.toNat) :
    s.store frame tailByte timestampUsec = (s, none) := by
  rw [store, if_neg (by rcases hsingle with h | h <;> simp [h])]
  split
  · rfl
  · rename_i htoggle
    rw [if_pos (h.resolve_left htoggle)]

/-- A frame that goes on with the transfer in progress, or ends it. -/
theorem store_next (hstart : isStartOfTransfer tailByte = false)
    (htoggle : toggleBit tailByte = s.nextToggle)
    (hid : (transferIdFromTailByte tailByte).toNat = s.transferId.toNat) :
    s.store frame tailByte timestampUsec =
      if isEndOfTransfer tailByte then
        ({ s with calculatedCrc := crcAdd s.calculatedCrc frame.data.dropLast }.waiting,
          if crcAdd s.calculatedCrc frame.data.dropLast = s.payloadCrc then
            some (s.bytes ++ frame.data.dropLast)
          else none)
      else
        ({ s with
            calculatedCrc := crcAdd s.calculatedCrc frame.data.dropLast
            bytes := s.bytes ++ frame.data.dropLast
            nextToggle := !s.nextToggle }, none) := by
  rw [store, hstart, if_neg (by simp), if_neg (not_not.mpr htoggle), if_neg (not_not.mpr hid),
    if_neg (by decide)]
  dsimp only
  cases isEndOfTransfer tailByte <;> rfl

/-- The first frame begins the transfer. -/
theorem store_first (hlen : canardCanFrameMaxDataLen ≤ t.payload.length) (hidle : s.Idle)
    (htid : s.transferId = t.tid)
    (hcrc : s.calculatedCrc = crcAddSignature 0xFFFF dataTypeSignature) :
    (s.store (t.multi 0) (t.tail 0) startUsec).2 = none ∧
      InProgress dataTypeSignature startUsec t 1 (s.store (t.multi 0) (t.tail 0) startUsec).1 := by
  have hn : 8 ≤ t.payload.length := hlen
  have hcount : t.count = (t.payload.length + 8) / 7 := rfl
  obtain ⟨hid, htoggle, hstart, hend⟩ := fields_tail (i := 0) hlen
  have hlong : ¬(t.multi 0).data.length ≤ 3 := by
    rw [multi_zero_data, TxTransfer.sentBefore]
    simp only [List.length_cons, List.length_append, List.length_take, List.length_nil]
    omega
  have hbody : (t.multi 0).data.dropLast.drop 2 = t.sentBefore 1 := by
    rw [multi_zero_bytes]
    rfl
  have hread : ((t.multi 0).data.getD 0 0).toUInt16 |||
      ((t.multi 0).data.getD 1 0).toUInt16 <<< 8 = t.crc := by
    rw [multi_zero_data]
    exact crc_of_crcBytes t.crc
  rw [Session.store, hstart, hend, htoggle, hid, htid, hidle.nextToggle, if_neg (by simp; omega),
    if_neg (by simp), if_neg (by simp), if_pos (by simp), if_neg hlong, hread, hbody, hcrc,
    hidle.bytes]
  exact ⟨rfl, rfl, rfl, rfl, rfl, rfl, rfl⟩

/-- Any session hears the first frame if it has to begin anew anyway, or if it
waits for this very transfer. -/
theorem feed_first (dataTypeSignature : UInt64)
    (hlen : canardCanFrameMaxDataLen ≤ t.payload.length)
    (h : restartNeeded s.timestampUsec s.transferId (t.tail 0) startUsec = true ∨
      s.Idle ∧ s.transferId = t.tid) :
    (s.feed (.frame (t.multi 0) startUsec (some dataTypeSignature))).2 = none ∧
      InProgress dataTypeSignature startUsec t 1
        (s.feed (.frame (t.multi 0) startUsec (some dataTypeSignature))).1 := by
  obtain ⟨hid, -, hstart, -⟩ := fields_tail (i := 0) hlen
  rw [feed, getLast_multi]
  dsimp only
  rw [if_pos (by rw [hstart]; rfl), Session.handle]
  by_cases hrestart : restartNeeded s.timestampUsec s.transferId (t.tail 0) startUsec = true
  · rw [if_pos hrestart, if_neg (by rw [hstart]; simp)]
    refine store_first hlen ⟨rfl, rfl⟩ ?_ rfl
    rw [restart, hid]
    exact BitVec.ofNat_toNat _ _
  · rw [if_neg hrestart]
    obtain ⟨hidle, htid⟩ := h.resolve_left hrestart
    exact store_first hlen ⟨hidle.bytes, hidle.nextToggle⟩ htid rfl

/-- A frame of the transfer in progress is taken. -/
theorem InProgress.feed_eq (accepted : Option UInt64)
    (h : InProgress dataTypeSignature startUsec t k s)
    (hlen : canardCanFrameMaxDataLen ≤ t.payload.length) (hk : 0 < k) (h0 : startUsec ≠ 0)
    (hlate : timestampUsec - startUsec ≤ transferTimeoutUsec) :
    s.feed (.frame (t.multi k) timestampUsec accepted) =
      let calculatedCrc := transferCrc dataTypeSignature (t.sentBefore (k + 1))
      if k + 1 = t.count then
        ({ s with calculatedCrc }.waiting,
          if calculatedCrc = t.crc then some (t.sentBefore (k + 1)) else none)
      else
        ({ s with calculatedCrc, bytes := t.sentBefore (k + 1), nextToggle := !s.nextToggle },
          none) := by
  obtain ⟨hid, htoggle, hstart, hend⟩ := fields_tail (i := k) hlen
  have hnot : isStartOfTransfer (t.tail k) = false := by
    rw [hstart]
    exact decide_eq_false (by omega)
  have hgoes : restartNeeded s.timestampUsec s.transferId (t.tail k) timestampUsec = false := by
    rw [restartNeeded_of_not_start hnot, h.timestamp]
    exact decide_eq_false (not_or.mpr ⟨h0, UInt64.not_lt.mpr hlate⟩)
  have hcrc : crcAdd s.calculatedCrc (t.multi k).data.dropLast =
      transferCrc dataTypeSignature (t.sentBefore (k + 1)) := by
    rw [h.calculatedCrc, transferCrc, ← crcAdd_append, sentBefore_append hk, transferCrc]
  have hbytes : s.bytes ++ (t.multi k).data.dropLast = t.sentBefore (k + 1) := by
    rw [h.bytes, sentBefore_append hk]
  rw [feed_of_not_start getLast_multi hnot, handle_of_goes_on hgoes,
    store_next hnot (htoggle.trans h.nextToggle.symm) (by rw [hid, h.transferId]), hend, hcrc,
    hbytes, h.payloadCrc]
  simp only [decide_eq_true_eq]

theorem InProgress.feed_next (h : InProgress dataTypeSignature startUsec t k s)
    (hlen : canardCanFrameMaxDataLen ≤ t.payload.length) (hk : 0 < k) (h0 : startUsec ≠ 0)
    (hlate : timestampUsec - startUsec ≤ transferTimeoutUsec) (hnot : k + 1 ≠ t.count) :
    ∃ s', s.feed (.frame (t.multi k) timestampUsec accepted) = (s', none) ∧
      InProgress dataTypeSignature startUsec t (k + 1) s' := by
  have hfeed := h.feed_eq accepted hlen hk h0 hlate
  dsimp only at hfeed
  rw [if_neg hnot] at hfeed
  refine ⟨_, hfeed, h.timestamp, h.payloadCrc, rfl, rfl, h.transferId, ?_⟩
  dsimp only
  rw [h.nextToggle, ← decide_not, decide_eq_decide]
  omega

/-- A session that begins anew at the first frame, or waits for it. -/
structure Ready (k : BitVec 5) (s : Session) : Prop where
  idle : s.Idle
  waits : s.timestampUsec = 0 ∨ s.transferId = k

theorem InProgress.feed_last (h : InProgress dataTypeSignature startUsec t k s)
    (hlen : canardCanFrameMaxDataLen ≤ t.payload.length) (hk : 0 < k) (h0 : startUsec ≠ 0)
    (hlate : timestampUsec - startUsec ≤ transferTimeoutUsec) (hlast : k + 1 = t.count) :
    ∃ s' payload, s.feed (.frame (t.multi k) timestampUsec accepted) = (s', payload) ∧
      payload.toList = t.heard dataTypeSignature ∧ s'.Ready (t.tid + 1) ∧
      s'.timestampUsec = startUsec := by
  have hfeed := h.feed_eq accepted hlen hk h0 hlate
  dsimp only at hfeed
  rw [if_pos hlast, hlast, sentBefore_count hlen] at hfeed
  refine ⟨_, _, hfeed, ?_, ⟨⟨rfl, rfl⟩, Or.inr (congrArg (· + 1) h.transferId)⟩, h.timestamp⟩
  rw [TxTransfer.heard]
  by_cases hcrc : transferCrc dataTypeSignature t.payload = t.crc
  · rw [if_pos hcrc, if_neg (fun h => h.2 hcrc)]
    rfl
  · rw [if_neg hcrc, if_pos ⟨hlen, hcrc⟩]
    rfl

theorem feed_cleanup (hnow : now - s.timestampUsec ≤ transferTimeoutUsec) :
    s.feed (.cleanup now) = (s, none) := by
  rw [feed, if_neg (UInt64.not_lt.mpr hnow)]

theorem Ready.cleanup {j : BitVec 5} (h : s.Ready j) : (s.feed (.cleanup now)).1.Ready j := by
  rw [feed]
  dsimp only
  split
  · exact ⟨⟨rfl, rfl⟩, Or.inl rfl⟩
  · exact h

theorem feedAll_inTime_nil (h : InTime startUsec frames inputs) (hnil : frames = [])
    (hs : s.timestampUsec = startUsec) : s.feedAll inputs = (s, []) := by
  induction h with
  | nil => rfl
  | frame => cases hnil
  | cleanup hnow _ ih => rw [feedAll, feed_cleanup (hs ▸ hnow), ih hnil]; rfl

/-- What is left of the transfer comes. -/
theorem InProgress.feedAll (h : InProgress dataTypeSignature startUsec t k s)
    (hlen : canardCanFrameMaxDataLen ≤ t.payload.length) (hk : 0 < k) (hcount : k < t.count)
    (h0 : startUsec ≠ 0)
    (hframes : frames = (List.range' k (t.count - k)).map t.multi)
    (hin : InTime startUsec frames inputs) :
    ∃ s', s.feedAll inputs = (s', t.heard dataTypeSignature) ∧ s'.Ready (t.tid + 1) := by
  induction hin generalizing s k with
  | nil =>
      rw [show t.count - k = t.count - (k + 1) + 1 by omega] at hframes
      cases hframes
  | cleanup hnow _ ih =>
      obtain ⟨s', hs', hready⟩ := ih h hk hcount hframes
      refine ⟨s', ?_, hready⟩
      rw [Session.feedAll, feed_cleanup (h.timestamp ▸ hnow), hs']
      rfl
  | frame hlate hrest ih =>
      rw [show t.count - k = t.count - (k + 1) + 1 by omega, List.range'_succ,
        List.map_cons] at hframes
      cases hframes
      rw [Session.feedAll]
      by_cases hlast : k + 1 = t.count
      · obtain ⟨s', payload, hs', hpayload, hready, hts⟩ := h.feed_last hlen hk h0 hlate hlast
        have hnil : (List.range' (k + 1) (t.count - (k + 1))).map t.multi = [] := by
          rw [hlast, Nat.sub_self]
          rfl
        rw [hs', feedAll_inTime_nil hrest hnil hts, hpayload]
        exact ⟨s', by rw [List.append_nil], hready⟩
      · obtain ⟨s₁, hs₁, hnext⟩ := h.feed_next hlen hk h0 hlate hlast
        obtain ⟨s', hs', hready⟩ := ih hnext (Nat.succ_pos k) (by omega) rfl
        rw [hs₁, hs']
        exact ⟨s', rfl, hready⟩

/-- A transfer of several frames, from the first one on. -/
theorem feedAll_multi (dataTypeSignature : UInt64)
    (hlen : canardCanFrameMaxDataLen ≤ t.payload.length)
    (h0 : startUsec ≠ 0)
    (h : restartNeeded s.timestampUsec s.transferId (t.tail 0) startUsec = true ∨
      s.Idle ∧ s.transferId = t.tid)
    (hin : InTime startUsec ((List.range' 1 (t.count - 1)).map t.multi) inputs) :
    ∃ s', s.feedAll (.frame (t.multi 0) startUsec (some dataTypeSignature) :: inputs) =
      (s', t.heard dataTypeSignature) ∧ s'.Ready (t.tid + 1) := by
  have hn : 8 ≤ t.payload.length := hlen
  have hcount : t.count = (t.payload.length + 8) / 7 := rfl
  obtain ⟨hnone, hprogress⟩ := feed_first dataTypeSignature hlen h
  obtain ⟨s', hs', hready⟩ :=
    hprogress.feedAll hlen Nat.one_pos (by omega) h0 rfl hin
  rw [Session.feedAll, hnone, hs']
  exact ⟨s', rfl, hready⟩

/-! ### A transfer ID that is one ahead -/

theorem toNat_add_one (k : BitVec 5) : (k + 1).toNat = (k.toNat + 1) % 2 ^ 5 := BitVec.toNat_add _ _

theorem forwardDistance_eq (a b : BitVec 5) : computeTransferIDForwardDistance
    (UInt8.ofNat a.toNat) (UInt8.ofNat b.toNat) = ((b - a).toNat : Int) := by
  have ha := a.isLt
  have hb := b.isLt
  rw [computeTransferIDForwardDistance, UInt8.toNat_ofNat_of_lt' (show _ < 2 ^ 8 by omega),
    UInt8.toNat_ofNat_of_lt' (show _ < 2 ^ 8 by omega), BitVec.toNat_sub]
  split <;> omega

/-- A first frame goes on with what is there iff the session is alive and its
transfer ID is the one the session has or the next one. -/
theorem restartNeeded_first (hlen : canardCanFrameMaxDataLen ≤ t.payload.length) :
    restartNeeded s.timestampUsec s.transferId (t.tail 0) startUsec = false ↔
      s.timestampUsec ≠ 0 ∧ startUsec - s.timestampUsec ≤ transferTimeoutUsec ∧
        (t.tid = s.transferId ∨ t.tid = s.transferId + 1) := by
  obtain ⟨hid, -, hstart, -⟩ := fields_tail (i := 0) hlen
  have hid' : transferIdFromTailByte (t.tail 0) = UInt8.ofNat t.tid.toNat := by
    rw [← hid, UInt8.ofNat_toNat]
  have hnear : (t.tid - s.transferId).toNat ≤ 1 ↔
      t.tid = s.transferId ∨ t.tid = s.transferId + 1 := by
    have hsub := BitVec.toNat_sub t.tid s.transferId
    have ht := t.tid.isLt
    have hs := s.transferId.isLt
    rw [← BitVec.toNat_inj, ← BitVec.toNat_inj, toNat_add_one, hsub]
    omega
  rw [restartNeeded, decide_eq_false_iff_not, not_or, not_or, hid', forwardDistance_eq, hstart,
    gt_iff_lt, UInt64.not_lt, ← hnear]
  refine and_congr_right fun _ => and_congr_right fun _ => ?_
  simp only [decide_true, true_and]
  omega

/-- The session will hear nothing of a transfer the beginning of which it has
missed. -/
structure Deaf (tid : BitVec 5) (s : Session) : Prop where
  idle : s.Idle
  waits : s.timestampUsec = 0 ∨ s.transferId ≠ tid

theorem Deaf.feed (timestampUsec : UInt64) (accepted : Option UInt64) (h : s.Deaf t.tid)
    (hlen : canardCanFrameMaxDataLen ≤ t.payload.length)
    (hk : 0 < k) :
    (s.feed (.frame (t.multi k) timestampUsec accepted)).2 = none ∧
      (s.feed (.frame (t.multi k) timestampUsec accepted)).1.Deaf t.tid := by
  obtain ⟨hid, htoggle, hstart, hend⟩ := fields_tail (i := k) hlen
  have hnot : isStartOfTransfer (t.tail k) = false := by
    rw [hstart]
    exact decide_eq_false (by omega)
  rw [feed_of_not_start getLast_multi hnot]
  by_cases hrestart :
      restartNeeded s.timestampUsec s.transferId (t.tail k) timestampUsec = true
  · rw [handle, if_pos hrestart, if_pos (by rw [hnot]; decide)]
    refine ⟨rfl, ⟨rfl, rfl⟩, Or.inr ?_⟩
    rw [restart, hid]
    dsimp only
    rw [BitVec.ofNat_toNat, BitVec.setWidth_eq]
    intro heq
    have ht := t.tid.isLt
    have hnat := congrArg BitVec.toNat heq
    rw [toNat_add_one] at hnat
    omega
  · have hgoes := Bool.eq_false_iff.mpr hrestart
    have halive : s.timestampUsec ≠ 0 := by
      intro h0
      rw [restartNeeded_of_not_start hnot, h0] at hgoes
      simp at hgoes
    have hne := h.waits.resolve_left halive
    rw [handle_of_goes_on hgoes, store_ignored (Or.inr hnot) (Or.inr ?_)]
    · exact ⟨rfl, h⟩
    · rw [hid]
      exact fun heq => hne (BitVec.eq_of_toNat_eq heq.symm)

theorem Deaf.cleanup {tid : BitVec 5} (h : s.Deaf tid) : (s.feed (.cleanup now)).1.Deaf tid := by
  rw [Session.feed]
  dsimp only
  split
  · exact ⟨⟨rfl, rfl⟩, Or.inl rfl⟩
  · exact h

theorem Deaf.feedAll (h : s.Deaf t.tid) (hlen : canardCanFrameMaxDataLen ≤ t.payload.length)
    (hk : 0 < k) (hframes : frames = (List.range' k (t.count - k)).map t.multi)
    (hin : InTime startUsec frames inputs) :
    (s.feedAll inputs).2 = [] ∧ (s.feedAll inputs).1.Idle := by
  induction hin generalizing s k with
  | nil => exact ⟨rfl, h.idle⟩
  | cleanup _ _ ih => exact ih h.cleanup hk hframes
  | frame hlate hrest ih =>
      by_cases hcount : k < t.count
      · rw [show t.count - k = t.count - (k + 1) + 1 by omega, List.range'_succ,
          List.map_cons] at hframes
        cases hframes
        obtain ⟨hnone, hdeaf⟩ := h.feed _ _ hlen hk
        rw [Session.feedAll]
        dsimp only
        rw [hnone]
        exact ih hdeaf (Nat.succ_pos k) rfl
      · rw [show t.count - k = 0 by omega] at hframes
        cases hframes

theorem frames_eq_cons (hlen : canardCanFrameMaxDataLen ≤ t.payload.length) :
    t.frames = t.multi 0 :: (List.range' 1 (t.count - 1)).map t.multi := by
  have hn : 8 ≤ t.payload.length := hlen
  have hcount : t.count = (t.payload.length + 8) / 7 := rfl
  rw [frames_of_le hlen, show t.count = t.count - 1 + 1 by omega, List.range'_succ]
  rfl

/-- A transfer of several frames that comes in time to a session between two
transfers is heard, unless its ID is one ahead of what the session waits for. -/
theorem feedAll_transfer {first : CanardCANFrame} (hidle : s.Idle)
    (hlen : canardCanFrameMaxDataLen ≤ t.payload.length) (h0 : startUsec ≠ 0)
    (hframes : t.frames = first :: frames) (hin : InTime startUsec frames inputs) :
    (s.feedAll (.frame first startUsec (some dataTypeSignature) :: inputs)).2 =
        (if s.timestampUsec ≠ 0 ∧ startUsec - s.timestampUsec ≤ transferTimeoutUsec ∧
          t.tid = s.transferId + 1 then [] else t.heard dataTypeSignature) ∧
      (s.feedAll (.frame first startUsec (some dataTypeSignature) :: inputs)).1.Idle := by
  rw [frames_eq_cons hlen] at hframes
  cases hframes
  by_cases hmissed : s.timestampUsec ≠ 0 ∧ startUsec - s.timestampUsec ≤ transferTimeoutUsec ∧
      t.tid = s.transferId + 1
  · obtain ⟨hid, htoggle, hstart, hend⟩ := fields_tail (i := 0) hlen
    have hne : t.tid.toNat ≠ s.transferId.toNat := by
      rw [hmissed.2.2, toNat_add_one]
      have hs := s.transferId.isLt
      omega
    have hn : 8 ≤ t.payload.length := hlen
    have hcount : t.count = (t.payload.length + 8) / 7 := rfl
    -- the first frame is ignored, but the CRC begins anew
    have hfirst : s.feed (.frame (t.multi 0) startUsec (some dataTypeSignature)) =
        ({ s with calculatedCrc := crcAddSignature 0xFFFF dataTypeSignature }, none) := by
      rw [Session.feed, getLast_multi]
      dsimp only
      rw [hstart, if_pos (by rfl), handle_of_goes_on, store_ignored]
      · left
        rw [hend]
        exact decide_eq_false (by omega)
      · right
        rw [hid]
        exact hne
      · exact (restartNeeded_first hlen).mpr ⟨hmissed.1, hmissed.2.1, Or.inr hmissed.2.2⟩
    have hdeaf : Deaf t.tid
        { s with calculatedCrc := crcAddSignature 0xFFFF dataTypeSignature } :=
      ⟨⟨hidle.bytes, hidle.nextToggle⟩, Or.inr fun heq => hne (congrArg _ heq.symm)⟩
    rw [if_pos hmissed, Session.feedAll, hfirst]
    exact hdeaf.feedAll hlen Nat.one_pos rfl hin
  · have hhears : restartNeeded s.timestampUsec s.transferId (t.tail 0) startUsec = true ∨
        s.Idle ∧ s.transferId = t.tid := by
      by_cases hrestart :
          restartNeeded s.timestampUsec s.transferId (t.tail 0) startUsec = true
      · exact Or.inl hrestart
      · obtain ⟨halive, hlate, htid⟩ :=
          (restartNeeded_first hlen).mp (Bool.eq_false_iff.mpr hrestart)
        refine Or.inr ⟨hidle, ?_⟩
        exact (htid.resolve_right fun htid => hmissed ⟨halive, hlate, htid⟩).symm
    obtain ⟨s', hs', hready⟩ :=
      feedAll_multi dataTypeSignature hlen h0 hhears hin
    rw [if_neg hmissed, hs']
    exact ⟨rfl, hready.idle⟩

/-! ### Streams -/

/-- A single frame is heard by every session. -/
theorem feed_single {first : CanardCANFrame} (dataTypeSignature startUsec : UInt64)
    (hlen : ¬canardCanFrameMaxDataLen ≤ t.payload.length)
    (hready : s.Ready t.tid) (hframes : t.frames = first :: frames) :
    frames = [] ∧ ∃ s',
      s.feed (.frame first startUsec (some dataTypeSignature)) = (s', some t.payload) ∧
      s'.Ready (t.tid + 1) ∧ s'.timestampUsec = startUsec := by
  have hn : t.payload.length ≤ 7 := Nat.le_of_lt_succ (not_le.mp hlen)
  rw [TxTransfer.frames, transferFrames, if_pos (not_le.mp hlen)] at hframes
  cases hframes
  have hsot : (0xC0 : UInt8) = 0xC0 ∨ (0xC0 : UInt8) = 0x80 ∨ (0xC0 : UInt8) = 0x40 ∨
      (0xC0 : UInt8) = 0 := Or.inl rfl
  obtain ⟨hid, -, hstart, hend⟩ := fields_tailByte false t.transferId hsot
  have hsingle : ∀ s₁ : Session, s₁.store
      (.compose t.canId t.payload (UavcanAdapter.tailByte 0xC0 false t.transferId))
      (UavcanAdapter.tailByte 0xC0 false t.transferId) startUsec =
        ({ s₁ with timestampUsec := startUsec }.waiting, some t.payload) := by
    intro s₁
    rw [store, hstart, hend, if_pos (by decide), dropLast_compose, List.take_of_length_le hn]
  rw [Session.feed, getLast_compose]
  dsimp only
  rw [hstart, if_pos (by decide), handle]
  refine ⟨rfl, ?_⟩
  by_cases hrestart : restartNeeded s.timestampUsec s.transferId
      (UavcanAdapter.tailByte 0xC0 false t.transferId) startUsec = true
  · rw [if_pos hrestart, hstart, if_neg (by simp), hsingle]
    refine ⟨_, rfl, ⟨⟨rfl, rfl⟩, Or.inr ?_⟩, rfl⟩
    rw [restart, hid, toNat_transferId_and]
    exact congrArg (· + 1) (BitVec.ofNat_toNat _ _)
  · rw [if_neg hrestart, hsingle]
    refine ⟨_, rfl, ⟨⟨rfl, rfl⟩, Or.inr (congrArg (· + 1) ?_)⟩, rfl⟩
    exact hready.waits.resolve_left fun h0 => hrestart (restartNeeded_of_eq_zero h0)

/-- Of a stream of transfers whose IDs follow one another a session hears each
one that is not damaged, once, and in order. -/
theorem feedAll_stream {k : BitVec 5} (hready : s.Ready k) (hids : Consecutive k ts)
    (h : TransferStream dataTypeSignature ts inputs) :
    (s.feedAll inputs).2 = ts.flatMap (TxTransfer.heard dataTypeSignature) := by
  induction h generalizing s k with
  | nil => rfl
  | cleanup _ ih => exact ih hready.cleanup hids
  | @transfer t ts first frames startUsec rest inputs hframes h0 hin _ ih =>
      obtain ⟨rfl, hids⟩ := hids
      rw [List.flatMap_cons, ← List.cons_append, feedAll_append]
      by_cases hlen : canardCanFrameMaxDataLen ≤ t.payload.length
      · rw [frames_eq_cons hlen] at hframes
        cases hframes
        have hhears : restartNeeded s.timestampUsec s.transferId (t.tail 0) startUsec = true ∨
            s.Idle ∧ s.transferId = t.tid := by
          rcases hready.waits with hts | htid
          · exact Or.inl (restartNeeded_of_eq_zero hts)
          · exact Or.inr ⟨hready.idle, htid⟩
        obtain ⟨s', hs', hready'⟩ :=
          feedAll_multi dataTypeSignature hlen h0 hhears hin
        rw [hs', ih hready' hids]
      · obtain ⟨rfl, s', hs', hready', hts⟩ :=
          feed_single dataTypeSignature startUsec hlen hready hframes
        rw [feedAll, hs']
        dsimp only
        rw [feedAll_inTime_nil hin rfl hts, ih hready' hids, TxTransfer.heard,
          if_neg fun h => hlen h.1]
        rfl

end Hearing

end Session

/-- A payload that is damaged within sixteen consecutive bits is not heard. -/
theorem heard_of_burst {t : TxTransfer} {dataTypeSignature : UInt64} {sent : List UInt8} {k : Nat}
    (hcrc : t.crc = payloadCrc dataTypeSignature sent) (hlen : t.payload.length = sent.length)
    (hlong : t.payload ≠ sent → canardCanFrameMaxDataLen ≤ sent.length)
    (hburst : ∀ i, (bitString t.payload)[i]? ≠ (bitString sent)[i]? → k ≤ i ∧ i < k + 16) :
    t.heard dataTypeSignature = if t.payload = sent then [sent] else [] := by
  have hsigned : canardCanFrameMaxDataLen ≤ sent.length →
      t.crc = transferCrc dataTypeSignature sent := by
    intro hlong
    rw [hcrc, payloadCrc, if_pos (Nat.lt_of_succ_le hlong)]
  rw [TxTransfer.heard]
  by_cases hsame : t.payload = sent
  · rw [if_pos hsame, hsame, if_neg]
    rintro ⟨hlong, hne⟩
    exact hne (hsigned hlong).symm
  · have hlong := hlong hsame
    rw [if_neg hsame, if_pos]
    refine ⟨hlen ▸ hlong, ?_⟩
    rw [hsigned hlong]
    exact crcAdd_ne_of_burst hlen hsame hburst

end UavcanAdapter
