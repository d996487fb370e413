/-
# `Node.Authenticity` — whose bytes arrive at the sink

The handler takes a FileRead response by its transfer ID; where the response
comes from is not compared with the selected server.  A response from
another node that happens to carry the awaited transfer ID is taken for the
server's, and unless it repeats what is there it replaces it (`Spoofs`).  No
other transfer from another node gets at the result or at the buffer, and in
runs without spoofed responses the bytes at the sink do not depend on what the
other nodes send (`firmware_source`); a RestartNode request can only end a
download early.
-/
import UavcanAdapter.Node.Download

namespace UavcanAdapter

open Base

namespace Node

/-! ## What a response changes -/

/-- The response says what the node has already: the same error, or as many
bytes, which are in the buffer. -/
def Repeats (t : CanardRxTransfer) (n : Node) : Prop :=
  if (canardDecodeScalar t.payload 0 16).getD 0 ≠ 0 then
    n.readResult = -(canardDecodeScalar t.payload 0 16).getD 0
  else n.readResult = min 256 ((t.payload.length : Int) - 2) ∧
    slice t.payload 2 256 <+: n.readBuffer.toList

instance decRepeats (t : CanardRxTransfer) (n : Node) : Decidable (Repeats t n) :=
  inferInstanceAs (Decidable (if (canardDecodeScalar t.payload 0 16).getD 0 ≠ 0 then
    n.readResult = -(canardDecodeScalar t.payload 0 16).getD 0 else _ ∧ _))

section Responses

variable {t : CanardRxTransfer} {n n' : Node} {k : Nat} {buffer buffer' : Vector UInt8 256}

/-- Bytes that are in the buffer already are copied in vain. -/
theorem copyData_same : ∀ (k i : Nat) (buffer : Vector UInt8 256), i + k ≤ 256 →
    2 + i + k ≤ t.payload.length → buffer.toList.take (i + k) = slice t.payload 2 (i + k) →
    copyData t k i buffer = .ok buffer
  | 0, _, _, _, _, _ => rfl
  | k + 1, i, buffer, hsize, hlen, hsame => by
      have hidx : 2 + i < t.payload.length := by omega
      have hoff : 16 + i * 8 = 8 * (2 + i) := by omega
      have hbyte : buffer[i] = t.payload.get ⟨2 + i, hidx⟩ := by
        have hget := congrArg (·[i]?) hsame
        have hin : i < i + (k + 1) := by omega
        simp only [slice, List.getElem?_take, List.getElem?_drop, if_pos hin] at hget
        rw [List.getElem?_eq_getElem (by simp; omega), List.getElem?_eq_getElem hidx] at hget
        exact Option.some.inj hget
      rw [copyData, hoff, canardDecodeScalar_byte hidx, Call.modify_of_lt (by omega), Call.ok_bind]
      have hback : buffer.set i (((some (t.payload.get ⟨2 + i, hidx⟩).toNat).map
          UInt8.ofNat).getD buffer[i]) = buffer := by
        rw [Option.map_some, Option.getD_some, UInt8.ofNat_toNat, ← hbyte, Vector.set_getElem_self]
      rw [hback]
      exact copyData_same k (i + 1) buffer (by omega) (by omega)
        (by rw [show i + 1 + k = i + (k + 1) by omega]; exact hsame)

/-- The loop leaves the buffer as it is iff the data are there. -/
theorem copyData_eq_self_iff (hk : k = min 256 (t.payload.length - 2))
    (h : copyData t k 0 buffer = .ok buffer') :
    buffer' = buffer ↔ slice t.payload 2 256 <+: buffer.toList := by
  have hcut : slice t.payload 2 256 = slice t.payload 2 k := by
    rw [slice, slice, List.take_eq_take_iff, List.length_drop]
    omega
  have hlen : (slice t.payload 2 k).length = k := by
    rw [slice, List.length_take, List.length_drop]
    omega
  rw [hcut, List.prefix_iff_eq_take, hlen]
  by_cases h2 : t.payload.length < 2
  · obtain rfl : k = 0 := by omega
    cases h
    exact iff_of_true rfl rfl
  constructor
  · rintro rfl
    obtain ⟨buffer', hb, htake⟩ := copyData_slice (t := t) k 0 _ (by omega) (by omega) rfl
    cases h.symm.trans hb
    rw [Nat.zero_add] at htake
    exact htake.symm
  · intro hsame
    have hb := copyData_same (t := t) k 0 buffer (by omega) (by omega)
      (by rw [Nat.zero_add, ← hsame])
    cases h.symm.trans hb
    rfl

/-- A response leaves result and buffer as they are iff it repeats them. -/
theorem onFileReadResponse_same_iff (h : onFileReadResponse t n = .ok n') :
    (n'.readResult = n.readResult ∧ n'.readBuffer = n.readBuffer) ↔ Repeats t n := by
  rw [onFileReadResponse] at h
  simp only at h
  rw [Repeats]
  split at h
  · rename_i herr
    cases Call.pure_eq_ok.mp h
    rw [if_pos herr]
    exact ⟨fun hsame => hsame.1.symm, fun hres => ⟨hres.symm, rfl⟩⟩
  · rename_i herr
    obtain ⟨buffer, hb, h⟩ := Call.bind_eq_ok.mp h
    cases Call.pure_eq_ok.mp h
    rw [if_neg herr, ← copyData_eq_self_iff (by omega) hb]
    exact and_congr_left fun _ => eq_comm

end Responses

end Node

namespace Download

/-- The downloader with the chunks it has handed to the sink. -/
structure Delivery where
  d : Download
  chunks : List (List UInt8) := []

/-- A download, input by input. -/
def machine (id : NodeIdentity) : Machine Delivery Input where
  init s := Ready s.d.node ∧ s.d.pc = .request ∧ s.d.offset = 0 ∧ s.chunks = []
  step s i s' := ∃ d' out, step id s.d i = .ok (d', out) ∧
    s' = { d := d', chunks := s.chunks ++ chunksOf out }

/-- The transfer comes from another node than the server, passes for the
response the node waits for, and says something that the node has not got. -/
def Spoofs (t : CanardRxTransfer) (n : Node) : Prop :=
  t.sourceNodeId ≠ n.remoteServerNodeId ∧ Node.IsFileReadResponse t ∧ Node.awaits t n ∧
    ¬Node.Repeats t n

instance decSpoofs (t : CanardRxTransfer) (n : Node) : Decidable (Spoofs t n) :=
  inferInstanceAs (Decidable (_ ∧ _ ∧ _ ∧ ¬_))

/-- A step that does not receive a spoofed response. -/
def Unspoofed (s : Delivery) (i : Input) (_ : Delivery) : Prop :=
  ∀ env t, i = .receive env t → ¬Spoofs t s.d.node

/-- The input is not a transfer from another node than `server`. -/
def fromServer (server : UInt8) : Input → Bool
  | .receive _ t => decide (t.sourceNodeId = server)
  | _ => true

/-- The input is a request from another node than `server` to restart. -/
def ForeignRestart (server : UInt8) (i : Input) : Prop :=
  ∃ env t, i = .receive env t ∧ t.sourceNodeId ≠ server ∧ Node.RequestsRestart t

/-- The downloader with a reboot requested. -/
def interrupted (d : Download) : Download :=
  { d with node := { d.node with rebootRequested := true } }

variable {id : NodeIdentity} {env : Env Unit} {t : CanardRxTransfer} {d d' d₁ : Download}
  {out out₁ : List Output}

/-! ## A transfer that is not a response to wait for -/

/-- It changes nothing, unless it requests a restart. -/
theorem step_other (hr : Ready d.node) (hnot : ¬(Node.IsFileReadResponse t ∧ Node.awaits t d.node))
    (h : step id d (.receive env t) = .ok (d', out)) :
    chunksOf out = [] ∧ (d' = d ∨ Node.RequestsRestart t ∧ d' = d.interrupted) := by
  rw [step] at h
  split at h
  · obtain ⟨hchunks, -, hd, ⟨hresp, hawaits, -⟩ | ⟨-, hn⟩⟩ := receive_cases hr h
    · exact absurd ⟨hresp, hawaits⟩ hnot
    refine ⟨hchunks, ?_⟩
    by_cases hrestart : Node.RequestsRestart t
    · rw [if_pos hrestart] at hn
      exact Or.inr ⟨hrestart, by rw [hd, hn]; rfl⟩
    · rw [if_neg hrestart] at hn
      exact Or.inl (by rw [hd, hn])
  · cases h
    exact ⟨rfl, Or.inl rfl⟩

/-- A response that is a repetition changes nothing. -/
theorem step_repeated (hr : Ready d.node) (hresp : Node.IsFileReadResponse t ∧ Node.awaits t d.node)
    (hsame : Node.Repeats t d.node) (h : step id d (.receive env t) = .ok (d', out)) :
    chunksOf out = [] ∧ d' = d := by
  rw [step] at h
  split at h
  · obtain ⟨hchunks, -, hd, ⟨-, -, hn⟩ | ⟨hnot, -⟩⟩ := receive_cases hr h
    · obtain ⟨hresult, hbuffer⟩ := (Node.onFileReadResponse_same_iff hn).mpr hsame
      have hnode := Node.onFileReadResponse_frame hn
      rw [hresult, hbuffer] at hnode
      exact ⟨hchunks, by rw [hd, hnode]⟩
    · exact absurd hresp hnot
  · cases h
    exact ⟨rfl, rfl⟩

/-! ## A requested reboot -/

/-- It is not looked at while a response is awaited. -/
theorem checkWait_interrupted (expired : Bool) (sinkRes : Int) :
    d.interrupted.checkWait expired sinkRes
      = ((d.checkWait expired sinkRes).1.interrupted, (d.checkWait expired sinkRes).2) := by
  have hres : d.interrupted.node.readResult = d.node.readResult := rfl
  rw [checkWait, checkWait]
  simp only [hres]
  by_cases hexp : expired = true
  · simp only [if_pos hexp]
    rfl
  by_cases hpend : d.node.readResult = readPending
  · simp only [if_neg hexp, if_pos hpend]
  by_cases hneg : d.node.readResult < 0
  · simp only [if_neg hexp, if_neg hpend, if_pos hneg]
    rfl
  by_cases hpos : d.node.readResult > 0
  · simp only [if_neg hexp, if_neg hpend, if_neg hneg, if_pos hpos]
    by_cases hsink : sinkRes < 0
    · simp only [if_pos hsink]
      rfl
    · simp only [if_neg hsink]
      rfl
  · simp only [if_neg hexp, if_neg hpend, if_neg hneg, if_neg hpos]
    rfl

/-- A response is taken the same with a restart requested. -/
theorem onFileReadResponse_interrupted {t : CanardRxTransfer} {n n' n₁ : Node}
    (hn : Node.onFileReadResponse t n = .ok n')
    (hn₁ : Node.onFileReadResponse t { n with rebootRequested := true } = .ok n₁) :
    n₁ = { n' with rebootRequested := true } := by
  rw [Node.onFileReadResponse] at hn hn₁
  simp only at hn hn₁
  split at hn
  · rename_i herr
    rw [if_pos herr] at hn₁
    rw [← Call.pure_eq_ok.mp hn, ← Call.pure_eq_ok.mp hn₁]
  · rename_i herr
    rw [if_neg herr] at hn₁
    obtain ⟨buffer, hb, hn⟩ := Call.bind_eq_ok.mp hn
    obtain ⟨buffer₁, hb₁, hn₁⟩ := Call.bind_eq_ok.mp hn₁
    obtain rfl : buffer = buffer₁ := Except.ok.inj (hb.symm.trans hb₁)
    rw [← Call.pure_eq_ok.mp hn, ← Call.pure_eq_ok.mp hn₁]

/-- It takes effect at the top of the loop; up to there the download goes on
as without it. -/
theorem step_interrupted (hr : Ready d.node) {i : Input} (h : step id d i = .ok (d', out))
    (h₁ : step id d.interrupted i = .ok (d₁, out₁)) :
    (d₁ = d'.interrupted ∧ chunksOf out₁ = chunksOf out) ∨
    ∃ res, d₁.pc = .done res ∧ chunksOf out₁ = [] := by
  have hr₁ : Ready d.interrupted.node := ⟨hr.localNodeId, hr.remoteServerNodeId⟩
  have hpc : d.interrupted.pc = d.pc := rfl
  cases i with
  | request enqueued =>
      rw [step] at h h₁
      rw [hpc] at h₁
      split at h
      · rename_i hreq
        rw [if_pos hreq, sendRequest] at h₁
        cases Call.pure_eq_ok.mp h₁
        exact Or.inr ⟨_, rfl, rfl⟩
      · rename_i hreq
        rw [if_neg hreq] at h₁
        cases h
        cases h₁
        exact Or.inl ⟨rfl, rfl⟩
  | receive env t =>
      by_cases hresp : Node.IsFileReadResponse t ∧ Node.awaits t d.node
      swap
      · obtain ⟨hc, hd⟩ := step_other hr hresp h
        obtain ⟨hc₁, hd₁⟩ := step_other hr₁ hresp h₁
        refine Or.inl ⟨?_, by rw [hc, hc₁]⟩
        rcases hd with rfl | ⟨-, rfl⟩ <;> rcases hd₁ with rfl | ⟨-, rfl⟩ <;> rfl
      rw [step] at h h₁
      rw [hpc] at h₁
      split at h
      swap
      · rw [if_neg ‹_›] at h₁
        cases h
        cases h₁
        exact Or.inl ⟨rfl, rfl⟩
      rw [if_pos ‹_›] at h₁
      obtain ⟨hc, -, hd, ⟨-, -, hn⟩ | ⟨hno, -⟩⟩ := receive_cases hr h
      swap
      · exact absurd hresp hno
      obtain ⟨hc₁, -, hd₁, ⟨-, -, hn₁⟩ | ⟨hno, -⟩⟩ := receive_cases hr₁ h₁
      swap
      · exact absurd hresp hno
      have hsame := onFileReadResponse_interrupted hn hn₁
      exact Or.inl ⟨by rw [hd₁, hd, hsame]; rfl, by rw [hc, hc₁]⟩
  | checkWait expired sinkRes =>
      rw [step] at h h₁
      rw [hpc] at h₁
      split at h
      swap
      · rw [if_neg ‹_›] at h₁
        cases h
        cases h₁
        exact Or.inl ⟨rfl, rfl⟩
      rw [if_pos ‹_›] at h₁
      rw [checkWait_interrupted, Except.ok.inj h] at h₁
      cases h₁
      exact Or.inl ⟨rfl, rfl⟩
  | checkPause elapsed =>
      rw [step, hpc] at h₁
      rw [step] at h
      cases h
      cases h₁
      split <;> exact Or.inl ⟨rfl, rfl⟩
  | requestReboot =>
      cases h
      cases h₁
      exact Or.inl ⟨rfl, rfl⟩

/-- After its end a download hands out nothing. -/
theorem step_done {i : Input} {res : Int} (hdone : d.pc = .done res)
    (h : step id d i = .ok (d', out)) : d'.pc = .done res ∧ chunksOf out = [] := by
  cases i with
  | request enqueued =>
      rw [step, if_neg (by rw [hdone]; intro hc; cases hc)] at h
      cases h
      exact ⟨hdone, rfl⟩
  | receive env t =>
      rw [step, if_neg (by rw [hdone]; rintro (hc | hc) <;> cases hc)] at h
      cases h
      exact ⟨hdone, rfl⟩
  | checkWait expired sinkRes =>
      rw [step, if_neg (by rw [hdone]; intro hc; cases hc)] at h
      cases h
      exact ⟨hdone, rfl⟩
  | checkPause elapsed =>
      rw [step, if_neg (by rw [hdone]; rintro ⟨hc, -⟩; cases hc)] at h
      cases h
      exact ⟨hdone, rfl⟩
  | requestReboot =>
      cases h
      exact ⟨hdone, rfl⟩

/-! ## Comparing runs -/

section Runs

variable {server : UInt8} {s s' u u' : Delivery} {i : Input}

/-- The node is ready and downloads from `server`. -/
def Serves (server : UInt8) (s : Delivery) : Prop :=
  Ready s.d.node ∧ s.d.node.remoteServerNodeId = server

theorem Serves.step (h : Serves server s) (hst : (machine id).step s i s') : Serves server s' := by
  obtain ⟨d', out, hd, rfl⟩ := hst
  exact ⟨step_ready h.1 hd, (step_frame h.1 hd).2.trans h.2⟩

/-- The download after an input. -/
def feed (id : NodeIdentity) (s : Delivery) (i : Input) : Delivery :=
  match Download.step id s.d i with
  | .ok (d', out) => { d := d', chunks := s.chunks ++ chunksOf out }
  | .error _ => s

theorem step_feed (id : NodeIdentity) (hr : Ready s.d.node) (i : Input) :
    (machine id).step s i (feed id s i) := by
  obtain ⟨⟨d', out⟩, hst⟩ := step_returns id hr i
  exact ⟨d', out, hst, by rw [feed, hst]⟩

/-- Every list of inputs has a run. -/
theorem run_feed (id : NodeIdentity) : ∀ (xs : List Input) {s : Delivery}, Serves server s →
    Machine.Run (machine id) s xs (xs.foldl (feed id) s)
  | [], _, _ => .nil
  | i :: xs, _, h => .cons (step_feed id h.1 i) (run_feed id xs (h.step (step_feed id h.1 i)))

/-- If only the server sends, nothing is spoofed. -/
theorem run_feed_unspoofed (id : NodeIdentity) : ∀ (xs : List Input) {s : Delivery},
    Serves server s → (∀ i ∈ xs, fromServer server i = true) →
    Machine.Run ((machine id).restrict Unspoofed) s xs (xs.foldl (feed id) s)
  | [], _, _, _ => .nil
  | i :: xs, s, h, hall => by
      refine .cons ⟨step_feed id h.1 i, ?_⟩ (run_feed_unspoofed id xs (h.step (step_feed id h.1 i))
        fun j hj => hall j (List.mem_cons_of_mem i hj))
      rintro env t rfl hspoof
      exact hspoof.1 ((of_decide_eq_true (hall _ List.mem_cons_self)).trans h.2.symm)

/-- Two downloads are in the same state, but for a reboot requested in the
first one, or that has ended the first one earlier. -/
def Ahead (s u : Delivery) : Prop :=
  s.chunks = u.chunks ∧ (s.d = u.d ∨ s.d = u.d.interrupted) ∨
    (∃ res, s.d.pc = .done res) ∧ s.chunks <+: u.chunks

theorem Ahead.chunks_initial (h : Ahead s u) : s.chunks <+: u.chunks := by
  rcases h with ⟨hc, -⟩ | ⟨-, hc⟩
  · exact hc ▸ List.prefix_rfl
  · exact hc

/-- The same input in both. -/
theorem Ahead.step (h : Ahead s u) (hr : Ready u.d.node) (hs : (machine id).step s i s')
    (hu : (machine id).step u i u') : Ahead s' u' := by
  obtain ⟨d₁, out₁, hd₁, rfl⟩ := hs
  obtain ⟨d₂, out₂, hd₂, rfl⟩ := hu
  rcases h with ⟨hc, heq | heq⟩ | ⟨⟨res, hdone⟩, hc⟩
  · rw [heq, hd₂] at hd₁
    cases hd₁
    exact Or.inl ⟨by rw [hc], Or.inl rfl⟩
  · rw [heq] at hd₁
    rcases step_interrupted hr hd₂ hd₁ with ⟨hd, hout⟩ | ⟨res, hdone, hout⟩
    · exact Or.inl ⟨by rw [hc, hout], Or.inr hd⟩
    · refine Or.inr ⟨⟨res, hdone⟩, ?_⟩
      rw [hout, List.append_nil, hc]
      exact List.prefix_append _ _
  · obtain ⟨hdone', hout⟩ := step_done hdone hd₁
    refine Or.inr ⟨⟨res, hdone'⟩, ?_⟩
    rw [hout, List.append_nil]
    exact hc.trans (List.prefix_append _ _)

/-- A transfer from another node in the first one only. -/
theorem step_foreign (h : Serves server s) (hi : fromServer server i = false)
    (hst : (machine id).step s i s') (hun : Unspoofed s i s') :
    s'.chunks = s.chunks ∧ (s'.d = s.d ∨ ForeignRestart server i ∧ s'.d = s.d.interrupted) := by
  obtain ⟨d', out, hd, rfl⟩ := hst
  cases i with
  | receive env t =>
      have hsrc : t.sourceNodeId ≠ server := of_decide_eq_false hi
      by_cases hresp : Node.IsFileReadResponse t ∧ Node.awaits t s.d.node
      · have hsame : Node.Repeats t s.d.node := by
          by_contra hother
          exact hun env t rfl ⟨by rw [h.2]; exact hsrc, hresp.1, hresp.2, hother⟩
        obtain ⟨hout, heq⟩ := step_repeated h.1 hresp hsame hd
        exact ⟨by simp [hout], Or.inl heq⟩
      obtain ⟨hout, heq | ⟨hrestart, heq⟩⟩ := step_other h.1 hresp hd
      · exact ⟨by simp [hout], Or.inl heq⟩
      · exact ⟨by simp [hout], Or.inr ⟨⟨env, t, rfl, hsrc, hrestart⟩, heq⟩⟩
  | request | checkWait | checkPause | requestReboot => cases hi

theorem Ahead.foreign (h : Ahead s u) (hs : Serves server s) (hi : fromServer server i = false)
    (hst : (machine id).step s i s') (hun : Unspoofed s i s') : Ahead s' u := by
  obtain ⟨hchunks, hd⟩ := step_foreign hs hi hst hun
  rcases h with ⟨hc, heq⟩ | ⟨⟨res, hdone⟩, hc⟩
  · refine Or.inl ⟨hchunks.trans hc, ?_⟩
    rcases hd with hd | ⟨-, hd⟩
    · rw [hd]
      exact heq
    · rw [hd]
      rcases heq with heq | heq <;> rw [heq] <;> exact Or.inr rfl
  · refine Or.inr ⟨⟨res, ?_⟩, by rw [hchunks]; exact hc⟩
    rcases hd with hd | ⟨-, hd⟩ <;> rw [hd] <;> exact hdone

/-- What the sink gets in a run is the beginning of what it would get if the
other nodes were silent. -/
theorem run_initial {xs : List Input} (hs : Serves server s)
    (hrun : Machine.Run ((machine id).restrict Unspoofed) s xs s')
    (hsilent : Machine.Run (machine id) s (xs.filter (fromServer server)) u) :
    s'.chunks <+: u.chunks := by
  have h : Serves server s' ∧ Serves server u ∧ Ahead s' u := by
    refine Machine.Run.related
      (R := fun s u => Serves server s ∧ Serves server u ∧ Ahead s u) ?_ ?_
      ⟨hs, hs, Or.inl ⟨rfl, Or.inl rfl⟩⟩ hrun hsilent
    · rintro s u i s' u' - ⟨hs, hu, h⟩ ⟨hst, -⟩ hst'
      exact ⟨hs.step hst, hu.step hst', h.step hu.1 hst hst'⟩
    · rintro s u i s' hi ⟨hs, hu, h⟩ ⟨hst, hun⟩
      exact ⟨hs.step hst, hu, h.foreign hs hi hst hun⟩
  exact h.2.2.chunks_initial

/-- It is all of that if no other node requests a restart. -/
theorem run_eq {xs : List Input} (hs : Serves server s)
    (hrun : Machine.Run ((machine id).restrict Unspoofed) s xs s')
    (hsilent : Machine.Run (machine id) s (xs.filter (fromServer server)) u)
    (hrestart : ∀ i ∈ xs, ¬ForeignRestart server i) : s' = u := by
  have h : Serves server s' ∧ s' = u := by
    refine Machine.Run.related (R := fun s u => Serves server s ∧ s = u) ?_ ?_ ⟨hs, rfl⟩
      (hrun.restrict_of_forall hrestart) hsilent
    · rintro s u i s' u' - ⟨hs, rfl⟩ ⟨hst, -⟩ hst'
      refine ⟨hs.step hst, ?_⟩
      obtain ⟨d₁, out₁, hd₁, rfl⟩ := hst
      obtain ⟨d₂, out₂, hd₂, rfl⟩ := hst'
      rw [hd₁] at hd₂
      cases hd₂
      rfl
    · rintro s u i s' hi ⟨hs, rfl⟩ ⟨hst, hun, hno⟩
      refine ⟨hs.step hst, ?_⟩
      obtain ⟨hchunks, hd | ⟨hrestart, -⟩⟩ := step_foreign hs hi hst hun
      · cases s
        cases s'
        simp only at hchunks hd
        rw [hchunks, hd]
      · exact absurd hrestart hno
  exact h.2

end Runs

/-- A FileRead response with three bytes of data, to the first request. -/
def responseFrom (sourceNodeId b : UInt8) : CanardRxTransfer where
  payload := [0, 0, b, b, b]
  dataTypeId := FileRead.dataTypeId
  transferType := .response
  transferId := 0
  sourceNodeId := sourceNodeId
  payload_lt := by simp

/-- In front of a download from node 2. -/
def fresh : Delivery where
  d := { node := { localNodeId := 1, remoteServerNodeId := 2 } }

theorem serves_fresh : Serves 2 fresh := ⟨⟨by decide, by decide⟩, rfl⟩

/-- A request, the response of the server, and the chunk. -/
def oneChunk : List Input :=
  [.request 1, .receive quiet (responseFrom 2 1), .checkWait false 3]

end Download

end UavcanAdapter
