/-
# `Node.Robustness` — which transfers the handler survives

Every part of `onTransferReception` but the node ID allocation returns for
every payload: the buffers are large enough for whatever the loops put into
them (`onGetNodeInfo_returns`, `copyData_ok`).  The allocation fails an
assertion on exactly the messages described by `Fatal`, and over whole runs
the node stays alive iff it receives none of them (`run_returns_iff`).
-/
import UavcanAdapter.Node.NodeInfo

namespace UavcanAdapter

open Base

namespace Node

variable {β : Type} {id : NodeIdentity} {env : Env β} {t : CanardRxTransfer} {n n' : Node}
  {bl bl' : β}

/-! ## The service parts return -/

/-- The GetNodeInfo response fits into its buffer. -/
theorem onGetNodeInfo_returns : Call.Returns (onGetNodeInfo id env t n bl) :=
  ⟨_, onGetNodeInfo_eq⟩

/-- The copy loop of a FileRead response stays inside the buffer. -/
theorem copyData_ok : ∀ (k i : Nat) (buffer : Vector UInt8 256), i + k ≤ 256 →
    ∃ buffer', copyData t k i buffer = .ok buffer'
  | 0, _, buffer, _ => ⟨buffer, rfl⟩
  | k + 1, i, buffer, h => by
      rw [copyData, Call.modify_of_lt (by omega), Call.ok_bind]
      exact copyData_ok k (i + 1) _ (by omega)

theorem onFileReadResponse_returns : Call.Returns (onFileReadResponse t n) := by
  rw [onFileReadResponse]
  simp only
  split
  · exact ⟨_, rfl⟩
  · obtain ⟨buffer, hb⟩ := copyData_ok (t := t) (min 256 ((t.payload.length : Int) - 2)).toNat 0
      n.readBuffer (by omega)
    rw [hb]
    exact ⟨_, rfl⟩

/-! ## The allocation -/

/-- The messages that fail an assertion: no unique ID, more than 16 bytes of
one, or our own one with node ID zero. -/
def Fatal (id : NodeIdentity) (n : Node) (t : CanardRxTransfer) : Prop :=
  n.localNodeId = canardBroadcastNodeId ∧ t.transferType = .broadcast ∧
    t.dataTypeId = NodeIDAllocation.dataTypeId ∧ t.sourceNodeId ≠ canardBroadcastNodeId ∧
    (t.payload.length = 0 ∨ 17 < t.payload.length ∨
      t.payload.length = 17 ∧ t.payload.drop 1 = id.hwInfo.uniqueId.toList ∧
        (t.payload.headD 0).toNat < 2)

instance decFatal (id : NodeIdentity) (n : Node) (t : CanardRxTransfer) :
    Decidable (Fatal id n t) :=
  inferInstanceAs (Decidable (_ ∧ _ ∧ _ ∧ _ ∧ (_ ∨ _ ∨ _ ∧ _ ∧ _)))

/-- The last step of the allocation: the ID in the seven upper bits of the
first byte has to be a node ID. -/
theorem takeAllocatedNodeId_returns_iff {b : UInt8} {bs : List UInt8}
    (h0 : n.localNodeId = canardBroadcastNodeId) (hpay : t.payload = b :: bs) :
    Call.Returns (takeAllocatedNodeId t n) ↔ 2 ≤ b.toNat := by
  have hb : b.toNat < 256 := b.toNat_lt
  have hid : (UInt8.ofNat (b.toNat / 2)).toNat = b.toNat / 2 :=
    UInt8.toNat_ofNat_of_lt' (show b.toNat / 2 < 2 ^ 8 by omega)
  have hmax : UInt8.ofNat (b.toNat / 2) ≤ 127 := by
    rw [UInt8.le_iff_toNat_le, hid]
    exact show b.toNat / 2 ≤ 127 by omega
  have hmin : canardMinNodeId ≤ UInt8.ofNat (b.toNat / 2) ↔ 2 ≤ b.toNat := by
    rw [UInt8.le_iff_toNat_le, hid]
    exact show 1 ≤ b.toNat / 2 ↔ 2 ≤ b.toNat by omega
  simp only [takeAllocatedNodeId, h0, hpay, canardDecodeScalar_seven, Option.getD_some]
  rw [Call.assert_of_true hmax, Call.ok_bind, canardSetLocalNodeID]
  by_cases h : 2 ≤ b.toNat
  · rw [if_pos ⟨rfl, hmin.mpr h, hmax⟩]
    exact ⟨fun _ => h, fun _ => ⟨_, rfl⟩⟩
  · rw [if_neg (fun hall => h (hmin.mp hall.2.1))]
    exact ⟨fun hret => absurd hret (Call.not_returns_error _), fun h' => absurd h' h⟩

theorem onAllocation_returns_iff (h0 : n.localNodeId = canardBroadcastNodeId)
    (hb : t.transferType = .broadcast) (hid : t.dataTypeId = NodeIDAllocation.dataTypeId) :
    Call.Returns (onAllocation id env t n) ↔ ¬Fatal id n t := by
  by_cases hsrc : t.sourceNodeId = canardBroadcastNodeId
  · have hnot : ¬Fatal id n t := fun h => h.2.2.2.1 hsrc
    refine ⟨fun _ => hnot, fun _ => ?_⟩
    rw [onAllocation]
    simp only [if_pos hsrc]
    exact ⟨_, rfl⟩
  have hfatal : Fatal id n t ↔ (t.payload.length = 0 ∨ 17 < t.payload.length ∨
      t.payload.length = 17 ∧ t.payload.drop 1 = id.hwInfo.uniqueId.toList ∧
        (t.payload.headD 0).toNat < 2) :=
    ⟨fun h => h.2.2.2.2, fun h => ⟨h0, hb, hid, hsrc, h⟩⟩
  rw [hfatal, onAllocation]
  simp only [if_neg hsrc]
  by_cases hlong : 16 < payloadLenMinusOne t
  · rw [uniqueIdLoop_error hlong 17 env.stack 0 (by omega) (by omega)]
    rw [payloadLenMinusOne_eq] at hlong
    refine ⟨fun hret => absurd hret (Call.not_returns_error _), fun hok => absurd ?_ hok⟩
    split at hlong
    · exact Or.inl ‹_›
    · exact Or.inr (Or.inl (by omega))
  rw [payloadLenMinusOne_eq] at hlong
  obtain ⟨b, bs, hpay⟩ : ∃ b bs, t.payload = b :: bs := by
    cases hp : t.payload with
    | nil => simp [hp] at hlong
    | cons b bs => exact ⟨b, bs, rfl⟩
  have hlen : t.payload.length = bs.length + 1 := by rw [hpay, List.length_cons]
  have hbs : bs.length ≤ 16 := by
    rw [if_neg (by omega)] at hlong
    omega
  obtain ⟨received, hloop, hcopied⟩ :=
    uniqueIdLoop_ok hlen hbs 17 env.stack 0 (by omega) (by omega) (by simp [slice])
  have hslice : slice t.payload 1 bs.length = bs := by
    rw [hpay, slice, List.drop_succ_cons, List.drop_zero, List.take_length]
  rw [hloop, Call.ok_bind, Call.equalPrefix_of_le hbs, Call.ok_bind, hcopied, hslice]
  by_cases hmatch : bs = id.hwInfo.uniqueId.toList.take bs.length
  swap
  · -- another node's ID
    simp only [hmatch, decide_false, Bool.not_false, if_true]
    refine ⟨fun _ => ?_, fun _ => ⟨_, rfl⟩⟩
    rintro (h | h | ⟨h, heq, -⟩)
    · omega
    · omega
    · rw [hpay, List.drop_succ_cons, List.drop_zero] at heq
      exact hmatch (by rw [heq]; simp)
  have hdec : decide (bs = List.take bs.length id.hwInfo.uniqueId.toList) = true :=
    decide_eq_true hmatch
  simp only [hdec, Bool.not_true, Bool.false_eq_true, if_false]
  by_cases hpart : bs.length < 16
  · simp only [if_pos hpart]
    refine ⟨fun _ => ?_, fun _ => ⟨_, rfl⟩⟩
    rintro (h | h | ⟨h, -⟩) <;> omega
  · have hfull : bs = id.hwInfo.uniqueId.toList := by
      rw [hmatch, List.take_of_length_le]
      simp
      omega
    simp only [if_neg hpart]
    refine (takeAllocatedNodeId_returns_iff (by exact h0) hpay).trans ?_
    rw [hpay]
    constructor
    · rintro h2 (h | h | ⟨-, -, hlt⟩)
      · simp at h
      · simp at h
        omega
      · simp at hlt
        omega
    · intro hok
      by_contra hlt
      exact hok (Or.inr (Or.inr ⟨by simp; omega, by simpa using hfull, by simp; omega⟩))

/-- The handler returns on every transfer that is not `Fatal`, and on no
other. -/
theorem reception_returns_iff :
    Call.Returns (onTransferReception id env t n bl) ↔ ¬Fatal id n t := by
  rw [onTransferReception]
  by_cases h1 : n.localNodeId = canardBroadcastNodeId ∧ t.transferType = .broadcast ∧
      t.dataTypeId = NodeIDAllocation.dataTypeId
  · obtain ⟨h0, hb, hid⟩ := h1
    have halloc : Call.Returns (onAllocation id env t n) ↔ ¬Fatal id n t :=
      onAllocation_returns_iff h0 hb hid
    rw [if_pos ⟨h0, hb, hid⟩, ← halloc]
    constructor
    · rintro ⟨r, hr⟩
      obtain ⟨n₁, hn₁, -⟩ := Call.bind_eq_ok.mp hr
      exact ⟨n₁, hn₁⟩
    · rintro ⟨n₁, hn₁⟩
      rw [hn₁]
      exact ⟨_, rfl⟩
  have hnot : ¬Fatal id n t := fun h => h1 ⟨h.1, h.2.1, h.2.2.1⟩
  refine ⟨fun _ => hnot, fun _ => ?_⟩
  rw [if_neg h1]
  split
  · have hret : Call.Returns (onGetNodeInfo id env t n bl) := onGetNodeInfo_returns
    obtain ⟨r, hr⟩ := hret
    rw [hr]
    exact ⟨_, rfl⟩
  split
  · exact ⟨_, rfl⟩
  split
  · exact ⟨_, rfl⟩
  split
  · obtain ⟨r, hr⟩ := onFileReadResponse_returns (t := t) (n := n)
    rw [hr]
    exact ⟨_, rfl⟩
  · exact ⟨_, rfl⟩

/-! ## Runs -/

/-- What happens to the node: a transfer arrives, or its thread changes its
state in any way between two transfers. -/
inductive Event (β : Type)
  | receive (env : Env β) (t : CanardRxTransfer)
  | other (f : Node × β → Node × β)

/-- A run of the node.  Transfers that do not pass the filter are dropped. -/
def run (id : NodeIdentity) : List (Event β) → Node × β → Call (Node × β)
  | [], s => .ok s
  | .receive env t :: es, (n, bl) =>
      if n.Admits t then do
        let (n, bl, _) ← onTransferReception id env t n bl
        run id es (n, bl)
      else run id es (n, bl)
  | .other f :: es, s => run id es (f s)

/-- A run goes through iff every transfer it admits is one the handler
survives in the state the transfer meets. -/
theorem run_returns_iff (id : NodeIdentity) : ∀ (es : List (Event β)) (s : Node × β),
    Call.Returns (run id es s) ↔
      ∀ pre env t post, es = pre ++ .receive env t :: post →
        ∀ n bl, run id pre s = .ok (n, bl) → n.Admits t → ¬Fatal id n t
  | [], s => by
      refine ⟨fun _ pre env t post h => ?_, fun _ => ⟨s, rfl⟩⟩
      simp at h
  | .other f :: es, s => by
      rw [run, run_returns_iff id es (f s)]
      constructor
      · intro h pre env t post heq n bl hrun
        cases pre with
        | nil => simp at heq
        | cons e pre =>
            obtain ⟨rfl, htail⟩ := List.cons.inj heq
            exact h pre env t post htail n bl hrun
      · intro h pre env t post heq n bl hrun
        exact h (.other f :: pre) env t post (by rw [heq]; rfl) n bl hrun
  | .receive env t :: es, (n, bl) => by
      rw [run]
      by_cases hadm : n.Admits t
      swap
      · rw [if_neg hadm, run_returns_iff id es (n, bl)]
        constructor
        · intro h pre env' t' post heq n' bl' hrun hadm'
          cases pre with
          | nil =>
              cases heq
              cases hrun
              exact absurd hadm' hadm
          | cons e pre =>
              obtain ⟨rfl, htail⟩ := List.cons.inj heq
              rw [run, if_neg hadm] at hrun
              exact h pre env' t' post htail n' bl' hrun hadm'
        · intro h pre env' t' post heq n' bl' hrun
          exact h (.receive env t :: pre) env' t' post (by rw [heq]; rfl) n' bl'
            (by rw [run, if_neg hadm]; exact hrun)
      rw [if_pos hadm]
      constructor
      · rintro ⟨r, hr⟩
        obtain ⟨⟨n₁, bl₁, sent⟩, hone, hrest⟩ := Call.bind_eq_ok.mp hr
        have hih := (run_returns_iff id es (n₁, bl₁)).mp ⟨r, hrest⟩
        intro pre env' t' post heq n' bl' hrun
        cases pre with
        | nil =>
            cases heq
            cases hrun
            exact fun _ => reception_returns_iff.mp ⟨_, hone⟩
        | cons e pre =>
            obtain ⟨rfl, htail⟩ := List.cons.inj heq
            rw [run, if_pos hadm, hone, Call.ok_bind] at hrun
            exact hih pre env' t' post htail n' bl' hrun
      · intro h
        have hret : Call.Returns (onTransferReception id env t n bl) :=
          reception_returns_iff.mpr (h [] env t es rfl n bl rfl hadm)
        obtain ⟨⟨n₁, bl₁, sent⟩, hone⟩ := hret
        rw [hone, Call.ok_bind]
        refine (run_returns_iff id es (n₁, bl₁)).mpr ?_
        intro pre env' t' post heq n' bl' hrun
        exact h (.receive env t :: pre) env' t' post (by rw [heq]; rfl) n' bl'
          (by rw [run, if_pos hadm, hone]; exact hrun)

/-- An Allocation message without a payload. -/
def emptyAllocation : CanardRxTransfer where
  payload := []
  dataTypeId := NodeIDAllocation.dataTypeId
  transferType := .broadcast
  transferId := 0
  sourceNodeId := 1
  payload_lt := CanardRxTransfer.length_nil_lt

/-- It stops a node that has just been started. -/
theorem run_not_returns :
    ¬∀ (id : NodeIdentity) (es : List (Event Unit)), Call.Returns (run id es ({}, ())) := by
  intro h
  have hrun : run {} [Event.receive quiet emptyAllocation] ({}, ()) = .error .assertion := rfl
  obtain ⟨s, hs⟩ := h {} [Event.receive quiet emptyAllocation]
  rw [hrun] at hs
  cases hs

end Node

end UavcanAdapter
