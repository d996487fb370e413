/-
# `Node.Stream` — what arrives at the sink

The downloader together with a server that answers its requests and a
network that loses, doubles and delays the answers.  `asked` is the list of
all requests ever made, the latest first, in this and in earlier downloads;
an answer may come in as long as fewer than 31 further requests were made
since.  A request counts as made once its transfer ID is used up, whether
the transmit queue took it or not.

`Stream.Inv` ties the transfer IDs of these requests to the one the node
uses next, so that of all the answers on their way the node takes only those
to its latest request (`Inv.latest`).  With that the bytes handed to the
sink are at any time a prefix of the file (`delivered_correct`).
-/
import UavcanAdapter.Base.SequenceNumbers
import UavcanAdapter.Node.Download

namespace UavcanAdapter

open Base

/-- A FileRead request as the server gets it, with the content of the file
it is for. -/
structure Asked where
  offset : Nat
  transferId : UInt8
  file : List UInt8
deriving DecidableEq

namespace Asked

/-- A request for a piece of `file`: the first five bytes are the offset. -/
def ofSent (file : List UInt8) (s : Sent) : Asked where
  offset := leNat (s.payload.take 5)
  transferId := s.transferId
  file := file

/-- The payloads the server answers the request with: no error and the data,
which are cut off at the end of the file, or an error. -/
inductive Answers (r : Asked) : List UInt8 → Prop
  | data : Answers r (leBytes 2 0 ++ slice r.file r.offset 256)
  | error {payload : List UInt8} {e : Nat} :
      0 < e → e < 2 ^ 16 → payload.take 2 = leBytes 2 e → Answers r payload

end Asked

/-- The downloader, the file it is to fetch, the requests it has made and
what it has handed to the sink in this download. -/
structure Stream where
  d : Download
  file : List UInt8
  asked : List Asked := []
  delivered : List UInt8 := []

namespace Stream

open Download

inductive Act
  /-- `download` is called anew, for a file -/
  | start (node : Node) (file : List UInt8)
  | input (i : Input)

/-- A FileRead response on the bus answers one of the last 31 requests. -/
def Answered (s : Stream) : Input → Prop
  | .receive _ t => Node.IsFileReadResponse t → ∃ j r, j < 31 ∧ s.asked[j]? = some r ∧
      t.transferId = r.transferId ∧ r.Answers t.payload
  | _ => True

/-- Between two downloads anything may happen to the node, but only requests
change the transfer ID. -/
inductive Step (id : NodeIdentity) : Stream → Act → Stream → Prop
  | start {s : Stream} {res : Int} {node : Node} {file : List UInt8} :
      s.d.pc = .done res → Ready node →
      node.fileReadTransferId = s.d.node.fileReadTransferId → file.length < 2 ^ 40 →
      Step id s (.start node file) { d := { node }, file, asked := s.asked }
  | input {s : Stream} {i : Input} {d' : Download} {out : List Output} :
      s.Answered i → Download.step id s.d i = .ok (d', out) →
      Step id s (.input i)
        { s with
          d := d'
          asked := (requestsOf out).map (Asked.ofSent s.file) ++ s.asked
          delivered := s.delivered ++ (chunksOf out).flatten }

/-- A node with any transfer ID starts its first download. -/
def machine (id : NodeIdentity) : Machine Stream Act where
  init s := Ready s.d.node ∧ s.d.node.fileReadTransferId.toNat < 32 ∧ s.d.pc = .request ∧
    s.d.offset = 0 ∧ s.file.length < 2 ^ 40 ∧ s.asked = [] ∧ s.delivered = []
  step := Step id

/-- What the node knows of the answer to the request `r`: nothing yet, an
error, or the data. -/
def Result (n : Node) (r : Asked) : Prop :=
  n.readResult = readPending ∨ n.readResult < 0 ∨
    n.readResult = (slice r.file r.offset 256).length ∧
      n.readBuffer.toList.take (slice r.file r.offset 256).length = slice r.file r.offset 256

/-- The invariant of every run. -/
structure Inv (s : Stream) : Prop where
  ready : Ready s.d.node
  transferId : s.d.node.fileReadTransferId.toNat < 32
  numbered : Numbered 32 s.d.node.fileReadTransferId.toNat (s.asked.map (·.transferId.toNat))
  file_lt : s.file.length < 2 ^ 40
  offset : s.d.offset.toNat = s.delivered.length
  delivered : s.delivered <+: s.file
  wait : s.d.pc = .wait → ∃ r rest, s.asked = r :: rest ∧ r.offset = s.delivered.length ∧
    r.file = s.file ∧ Result s.d.node r
  complete : s.d.pc = .done 0 → s.delivered = s.file

variable {id : NodeIdentity} {s s' : Stream}

theorem transferId_succ (id : UInt8) : ((id + 1) &&& 31).toNat = (id.toNat + 1) % 32 := by
  have hall : ∀ n : Fin 256, ((UInt8.ofNat n.val + 1) &&& 31).toNat = (n.val + 1) % 32 := by
    decide +kernel
  simpa using hall ⟨id.toNat, id.toNat_lt⟩

/-- The only answers the node takes are those to its latest request. -/
theorem Inv.latest (h : Inv s) {env : Env Unit} {t : CanardRxTransfer}
    (hans : s.Answered (.receive env t)) (hresp : Node.IsFileReadResponse t)
    (hawaits : Node.awaits t s.d.node) :
    ∃ r rest, s.asked = r :: rest ∧ r.Answers t.payload := by
  obtain ⟨j, r, hj, hr, htid, hpay⟩ := hans hresp
  have hmatch : (r.transferId.toNat + 1) % 32 = s.d.node.fileReadTransferId.toNat % 32 := by
    have heq : (r.transferId + 1) &&& 31 = s.d.node.fileReadTransferId := htid ▸ hawaits
    rw [← heq, transferId_succ, Nat.mod_mod]
  obtain rfl : j = 0 := h.numbered.latest (by rw [List.getElem?_map, hr]; rfl) (by omega) hmatch
  cases hasked : s.asked with
  | nil => simp [hasked] at hr
  | cons r' rest =>
      rw [hasked, List.getElem?_cons_zero] at hr
      cases hr
      exact ⟨r, rest, rfl, hpay⟩

/-- An answer leaves its own result behind. -/
theorem result_of_answers {r : Asked} {t : CanardRxTransfer} {n n' : Node}
    (h : Node.onFileReadResponse t n = .ok n') (hpay : r.Answers t.payload) : Result n' r := by
  generalize hp : t.payload = payload at hpay
  cases hpay with
  | data =>
      obtain ⟨buffer, hok, htake⟩ := Node.onFileReadResponse_data (n := n) hp (by simp)
      rw [hok] at h
      cases h
      exact Or.inr (Or.inr ⟨rfl, htake⟩)
  | @error _ e hpos hlt htake =>
      rw [Node.onFileReadResponse_error hpos hlt (by rw [hp]; exact htake)] at h
      cases h
      exact Or.inr (Or.inl (show (-(e : Int)) < 0 by omega))

theorem inv_init (h : (machine id).init s) : Inv s := by
  obtain ⟨hready, htid, hpc, hoffset, hfile, hasked, hdelivered⟩ := h
  exact
    { ready := hready
      transferId := htid
      numbered := by rw [hasked]; exact numbered_nil _ _
      file_lt := hfile
      offset := by rw [hoffset, hdelivered]; rfl
      delivered := by rw [hdelivered]; exact List.nil_prefix
      wait := fun hw => by rw [hpc] at hw; cases hw
      complete := fun hd => by rw [hpc] at hd; cases hd }

/-- A download that stops with an error keeps the invariant. -/
theorem Inv.stop (h : Inv s) {res : Int} (hres : res ≠ 0) :
    Inv { s with d := { s.d with pc := .done res } } where
  ready := h.ready
  transferId := h.transferId
  numbered := h.numbered
  file_lt := h.file_lt
  offset := h.offset
  delivered := h.delivered
  wait hw := by cases hw
  complete hd := absurd (DownloadPc.done.inj hd) hres

/-- The request asks for what comes next in the file. -/
theorem Inv.ofSent_offset (h : Inv s) :
    (Asked.ofSent s.file s.d.fileReadRequest).offset = s.delivered.length := by
  have hlt : s.d.offset.toNat < 256 ^ 5 := by
    have hle := h.delivered.length_le
    have hfile := h.file_lt
    rw [h.offset]
    omega
  show leNat ((leBytes 5 s.d.offset.toNat ++ s.d.node.firmwareFilePath.chars).take 5) = _
  rw [List.take_left' (length_leBytes 5 _), leNat_leBytes_of_lt hlt, h.offset]

theorem inv_request (h : Inv s) {enqueued : Int} {d' : Download} {out : List Output}
    (hs : s.d.sendRequest enqueued = .ok (d', out)) :
    Inv { s with
      d := d'
      asked := (requestsOf out).map (Asked.ofSent s.file) ++ s.asked
      delivered := s.delivered ++ (chunksOf out).flatten } := by
  rcases sendRequest_cases h.ready.localNodeId hs with ⟨rfl, rfl⟩ | ⟨rfl, rfl⟩
  · simpa [requestsOf, chunksOf] using h.stop (show -errInterrupted ≠ 0 by decide)
  have hlt := h.transferId
  have htid := incrementTransferID_toNat h.transferId
  have hnum := h.numbered.cons
  rw [← htid] at hnum
  have hasked : (requestsOf [.request s.d.fileReadRequest]).map (Asked.ofSent s.file) ++ s.asked
      = Asked.ofSent s.file s.d.fileReadRequest :: s.asked := rfl
  have hdel : s.delivered ++ (chunksOf [.request s.d.fileReadRequest]).flatten = s.delivered := by
    simp [chunksOf]
  rw [hasked, hdel]
  split
  · rename_i hneg
    exact
      { ready := ⟨h.ready.localNodeId, h.ready.remoteServerNodeId⟩
        transferId := by simp only [htid]; omega
        numbered := hnum
        file_lt := h.file_lt
        offset := h.offset
        delivered := h.delivered
        wait := fun hw => by cases hw
        complete := fun hd => absurd (DownloadPc.done.inj hd) (by omega) }
  · exact
      { ready := ⟨h.ready.localNodeId, h.ready.remoteServerNodeId⟩
        transferId := by simp only [htid]; omega
        numbered := hnum
        file_lt := h.file_lt
        offset := h.offset
        delivered := h.delivered
        wait := fun _ => ⟨_, _, rfl, h.ofSent_offset, rfl, Or.inl rfl⟩
        complete := fun hd => by cases hd }

theorem inv_receive (h : Inv s) {env : Env Unit} {t : CanardRxTransfer} {d' : Download}
    {out : List Output} (hpc : s.d.pc = .wait ∨ s.d.pc = .pause)
    (hans : s.Answered (.receive env t)) (hs : s.d.receive id env t = .ok (d', out)) :
    Inv { s with
      d := d'
      asked := (requestsOf out).map (Asked.ofSent s.file) ++ s.asked
      delivered := s.delivered ++ (chunksOf out).flatten } := by
  obtain ⟨hchunks, hrequests, hd, hcase⟩ := receive_cases h.ready hs
  have hnotdone : d'.pc ≠ .done 0 := by
    rw [hd]
    rcases hpc with hpc | hpc <;> simp [hpc]
  have hwait : d'.pc = .wait → s.d.pc = .wait := fun hw => by rwa [hd] at hw
  have hoffset : d'.offset = s.d.offset := by rw [hd]
  rw [hchunks, hrequests]
  simp only [List.map_nil, List.nil_append, List.flatten_nil, List.append_nil]
  rcases hcase with ⟨hresp, hawaits, hread⟩ | ⟨-, hn⟩
  · obtain ⟨r, rest, hasked, hpay⟩ := h.latest hans hresp hawaits
    have hframe := Node.onFileReadResponse_frame hread
    have htid : d'.node.fileReadTransferId = s.d.node.fileReadTransferId := by rw [hframe]
    exact
      { ready := by
          rw [hframe]
          exact ⟨h.ready.localNodeId, h.ready.remoteServerNodeId⟩
        transferId := by simp only [htid]; exact h.transferId
        numbered := by simp only [htid]; exact h.numbered
        file_lt := h.file_lt
        offset := by simp only [hoffset]; exact h.offset
        delivered := h.delivered
        wait := by
          intro hw
          obtain ⟨r', rest', hasked', hoff, hfile, -⟩ := h.wait (hwait hw)
          obtain ⟨rfl, rfl⟩ := List.cons.inj (hasked.symm.trans hasked')
          exact ⟨r, rest, hasked, hoff, hfile, result_of_answers hread hpay⟩
        complete := fun hdone => absurd hdone hnotdone }
  · -- the other transfers leave the transfer ID and the result alone
    have hsame : d'.node.fileReadTransferId = s.d.node.fileReadTransferId ∧
        (∀ r, Result s.d.node r → Result d'.node r) ∧ Ready d'.node := by
      rw [hn]
      split
      · exact ⟨rfl, fun _ hr => hr, h.ready.localNodeId, h.ready.remoteServerNodeId⟩
      · exact ⟨rfl, fun _ hr => hr, h.ready⟩
    obtain ⟨htid, hresult, hready⟩ := hsame
    exact
      { ready := hready
        transferId := by simp only [htid]; exact h.transferId
        numbered := by simp only [htid]; exact h.numbered
        file_lt := h.file_lt
        offset := by simp only [hoffset]; exact h.offset
        delivered := h.delivered
        wait := by
          intro hw
          obtain ⟨r, rest, hasked, hoff, hfile, hr⟩ := h.wait (hwait hw)
          exact ⟨r, rest, hasked, hoff, hfile, hresult r hr⟩
        complete := fun hdone => absurd hdone hnotdone }

/-- The result of a request, once it is there, is the next piece of the
file. -/
theorem Inv.next (h : Inv s) (hpc : s.d.pc = .wait) (hnonneg : 0 ≤ s.d.node.readResult)
    (hpend : s.d.node.readResult ≠ readPending) :
    s.d.node.readResult = (slice s.file s.delivered.length 256).length ∧
      s.d.node.readBuffer.toList.take (slice s.file s.delivered.length 256).length
        = slice s.file s.delivered.length 256 := by
  obtain ⟨r, rest, -, hoff, hfile, hr⟩ := h.wait hpc
  rw [← hoff, ← hfile]
  rcases hr with hr | hr | hr
  · exact absurd hr hpend
  · omega
  · exact hr

theorem inv_checkWait (h : Inv s) {expired : Bool} {sinkRes : Int} {d' : Download}
    {out : List Output} (hpc : s.d.pc = .wait) (hs : s.d.checkWait expired sinkRes = (d', out)) :
    Inv { s with
      d := d'
      asked := (requestsOf out).map (Asked.ofSent s.file) ++ s.asked
      delivered := s.delivered ++ (chunksOf out).flatten } := by
  rcases checkWait_cases hs with ⟨rfl, rfl⟩ | ⟨res, hres, rfl, rfl⟩ |
    ⟨hpos, hpend, ⟨pc, hpc', rfl⟩, rfl⟩ | ⟨hzero, rfl, rfl⟩
  · simpa [requestsOf, chunksOf] using h
  · simpa [requestsOf, chunksOf] using h.stop hres
  · obtain ⟨hlen, htake⟩ := h.next hpc (by omega) hpend
    have hdata : s.d.node.readBuffer.toList.take s.d.node.readResult.toNat
        = slice s.file s.delivered.length 256 := by rw [hlen]; exact htake
    have hprefix : s.delivered ++ slice s.file s.delivered.length 256 <+: s.file := by
      have hstart : s.delivered = slice s.file 0 s.delivered.length := by
        rw [slice_zero]
        exact List.prefix_iff_eq_take.mp h.delivered
      have hwhole := slice_append_slice s.file 0 s.delivered.length 256
      rw [← hstart, Nat.zero_add, slice_zero] at hwhole
      rw [hwhole]
      exact List.take_prefix _ _
    rw [hdata]
    have hchunks : (chunksOf [.chunk (slice s.file s.delivered.length 256)]).flatten
        = slice s.file s.delivered.length 256 := by simp [chunksOf]
    have hoffset : (s.d.offset + UInt64.ofNat s.d.node.readResult.toNat).toNat
        = (s.delivered ++ slice s.file s.delivered.length 256).length := by
      have hfile := h.file_lt
      have hle := hprefix.length_le
      rw [List.length_append] at hle ⊢
      rw [hlen, Int.toNat_natCast, UInt64.toNat_add, h.offset,
        UInt64.toNat_ofNat_of_lt' (by show _ < 2 ^ 64; omega), Nat.mod_eq_of_lt (by omega)]
    rw [hchunks]
    exact
      { ready := h.ready
        transferId := h.transferId
        numbered := h.numbered
        file_lt := h.file_lt
        offset := hoffset
        delivered := hprefix
        wait := fun hw => by rcases hpc' with rfl | ⟨res, -, rfl⟩ <;> cases hw
        complete := fun hd => by
          rcases hpc' with rfl | ⟨res, hres, rfl⟩
          · cases hd
          · exact absurd (DownloadPc.done.inj hd) hres }
  · -- an empty piece: the file ends here
    obtain ⟨hlen, -⟩ := h.next hpc (by omega) (by rw [hzero]; decide)
    have hend : s.file.length ≤ s.delivered.length := by
      rw [hzero, length_slice] at hlen
      omega
    have heq : s.delivered = s.file := h.delivered.eq_of_length_le hend
    exact
      { ready := h.ready
        transferId := h.transferId
        numbered := h.numbered
        file_lt := h.file_lt
        offset := by simpa [chunksOf] using h.offset
        delivered := by simpa [chunksOf] using h.delivered
        wait := fun hw => by cases hw
        complete := fun _ => by simpa [chunksOf] using heq }

theorem inv_start (h : Inv s) {node : Node} {file : List UInt8} (hready : Ready node)
    (htid : node.fileReadTransferId = s.d.node.fileReadTransferId) (hfile : file.length < 2 ^ 40) :
    Inv { d := { node }, file, asked := s.asked } where
  ready := hready
  transferId := by simp only [htid]; exact h.transferId
  numbered := by simp only [htid]; exact h.numbered
  file_lt := hfile
  offset := rfl
  delivered := List.nil_prefix
  wait hw := by cases hw
  complete hd := by cases hd

/-- Every step keeps the invariant. -/
theorem inv_step {a : Act} (h : Inv s) (hs : Step id s a s') : Inv s' := by
  have hidle : Inv { s with
      d := s.d
      asked := (requestsOf []).map (Asked.ofSent s.file) ++ s.asked
      delivered := s.delivered ++ (chunksOf []).flatten } := by
    simpa [requestsOf, chunksOf] using h
  cases hs with
  | start _ hready htid hfile => exact inv_start h hready htid hfile
  | @input i d' out hans hst =>
      cases i with
      | request enqueued =>
          rw [Download.step] at hst
          split at hst
          · exact inv_request h hst
          · cases hst
            exact hidle
      | receive env t =>
          rw [Download.step] at hst
          split at hst
          · exact inv_receive h ‹_› hans hst
          · cases hst
            exact hidle
      | checkWait expired sinkRes =>
          rw [Download.step] at hst
          split at hst
          · exact inv_checkWait h ‹_› (Except.ok.inj hst)
          · cases hst
            exact hidle
      | checkPause elapsed =>
          cases hst
          split
          · have hi := hidle
            exact
              { hi with
                wait := fun hw => by cases hw
                complete := fun hd => by cases hd }
          · exact hidle
      | requestReboot =>
          cases hst
          have hi := hidle
          exact { hi with ready := ⟨h.ready.localNodeId, h.ready.remoteServerNodeId⟩ }

theorem inv_reachable (h : (machine id).Reachable s) : Inv s := by
  refine Machine.Reachable.invariant (I := Inv) ?_ ?_ h
  · intro s h0
    exact inv_init h0
  · intro s a s' _ hi hs
    exact inv_step hi hs

/-- Whatever the network does to the answers, what the downloader has handed
to the sink is the beginning of the file, and all of it when `download`
returns success. -/
theorem delivered_correct (h : (machine id).Reachable s) :
    s.delivered <+: s.file ∧ (s.d.pc = .done 0 → s.delivered = s.file) :=
  have hinv := inv_reachable h
  ⟨hinv.delivered, hinv.complete⟩

/-- The state after an input. -/
def feed (id : NodeIdentity) (s : Stream) (i : Input) : Stream :=
  match Download.step id s.d i with
  | .ok (d', out) =>
      { s with
        d := d'
        asked := (requestsOf out).map (Asked.ofSent s.file) ++ s.asked
        delivered := s.delivered ++ (chunksOf out).flatten }
  | .error _ => s

theorem reachable_feed (h : (machine id).Reachable s) {i : Input} (hans : s.Answered i) :
    (machine id).Reachable (s.feed id i) := by
  obtain ⟨⟨d', out⟩, hst⟩ := step_returns id (inv_reachable h).ready i
  rw [feed, hst]
  exact h.step (Step.input hans hst)

/-- A response without an error. -/
def response (transferId : UInt8) (data : List UInt8) (h : data.length ≤ 256) :
    CanardRxTransfer where
  payload := leBytes 2 0 ++ data
  dataTypeId := FileRead.dataTypeId
  transferType := .response
  transferId := transferId
  sourceNodeId := 2
  payload_lt := by simp; omega

/-- In front of the download of three bytes, with the last transfer ID next. -/
def threeBytes : Stream where
  d := { node := { localNodeId := 1, remoteServerNodeId := 2, fileReadTransferId := 31 } }
  file := [1, 2, 3]

/-- The first response comes twice, the second time when the second request
is out already. -/
def threeBytesInputs : List Input :=
  [.request 1, .receive quiet (response 31 [1, 2, 3] (by decide)), .checkWait false 3,
    .checkPause true, .request 1, .receive quiet (response 31 [1, 2, 3] (by decide)),
    .receive quiet (response 0 [] (by decide)), .checkWait false 0]

theorem reachable_threeBytes :
    (machine {}).Reachable (threeBytesInputs.foldl (feed {}) threeBytes) := by
  have h₀ : (machine {}).Reachable threeBytes :=
    .init ⟨⟨by decide, by decide⟩, by decide, rfl, rfl, by decide, rfl, rfl⟩
  have h₁ := reachable_feed h₀ (i := .request 1) trivial
  have h₂ := reachable_feed h₁ (i := .receive quiet (response 31 [1, 2, 3] (by decide)))
    fun _ => ⟨0, ⟨0, 31, [1, 2, 3]⟩, by decide, by decide +kernel, rfl, .data⟩
  have h₃ := reachable_feed h₂ (i := .checkWait false 3) trivial
  have h₄ := reachable_feed h₃ (i := .checkPause true) trivial
  have h₅ := reachable_feed h₄ (i := .request 1) trivial
  have h₆ := reachable_feed h₅ (i := .receive quiet (response 31 [1, 2, 3] (by decide)))
    fun _ => ⟨1, ⟨0, 31, [1, 2, 3]⟩, by decide, by decide +kernel, rfl, .data⟩
  have h₇ := reachable_feed h₆ (i := .receive quiet (response 0 [] (by decide)))
    fun _ => ⟨0, ⟨3, 0, [1, 2, 3]⟩, by decide, by decide +kernel, rfl, .data⟩
  have h₈ := reachable_feed h₇ (i := .checkWait false 0) trivial
  simpa only [threeBytesInputs, List.foldl_cons, List.foldl_nil] using h₈

/-- The download succeeds and has delivered the file. -/
theorem delivered_correct_threeBytes :
    (threeBytesInputs.foldl (feed {}) threeBytes).d.pc = .done 0 ∧
      (threeBytesInputs.foldl (feed {}) threeBytes).delivered
        = (threeBytesInputs.foldl (feed {}) threeBytes).file :=
  have hpc : (threeBytesInputs.foldl (feed {}) threeBytes).d.pc = .done 0 := by decide +kernel
  ⟨hpc, (delivered_correct reachable_threeBytes).2 hpc⟩

end Stream

end UavcanAdapter
