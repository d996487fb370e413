/-
# `Os.Watchdog` — many watchdogs on one hardware timer

`watchdog_stm32.cpp`, which the application and the bootloader have a copy
of each.  Every thread gets a bit in `_mask`; the thread that completes the
round reloads the hardware timer and clears the mask.

Threads enter and leave the functions at any time.  What the critical
sections protect is one step; the rest of `watchdogCreate`, which raises the
timeout, is not protected and is cut where another thread can come in
between.  A record of the sections that were executed, with no counterpart
in the source, says what happened since the last reload (`Touched`).
-/
import UavcanAdapter.Base.BitSet
import UavcanAdapter.Base.Call
import UavcanAdapter.Base.Machine

namespace UavcanAdapter

open Base

/-- A write to a register of the independent watchdog. -/
inductive IwdgWrite
  | kr (value : UInt32)
  | pr (value : UInt32)
  | rlr (value : UInt32)
deriving DecidableEq, Repr

namespace IwdgWrite

/-- The reload value that a write sets. -/
def reloadValue? : IwdgWrite → Option UInt32
  | .rlr value => some value
  | .kr _ | .pr _ => none

end IwdgWrite

/-- The bits of `RCC->CSR` that `watchdogInit` reads. -/
structure RccCsr where
  lsion : Bool
  lsirdy : Bool
  iwdgrstf : Bool

/-- The variables of the module. -/
structure Watchdog where
  wdgTimeoutMs : UInt32 := 0
  mask : UInt32 := 0
  numWatchdogs : UInt8 := 0
  triggeredReset : Bool := false
deriving DecidableEq, Repr

namespace Watchdog

def krKeyAccess : UInt32 := 0x5555
def krKeyReload : UInt32 := 0xAAAA
def krKeyEnable : UInt32 := 0xCCCC

def maxReloadVal : UInt32 := 0xFFF

def maxNumWatchdogs : UInt8 := 31

/-- `1U << count`, which has no meaning for a count of 32 or more. -/
def shiftedOne (count : Int) : Call UInt32 :=
  if 0 ≤ count ∧ count < 32 then .ok (BitSet.single count.toNat) else .error .bounds

/-- The value of the reload register for a timeout. -/
def reloadValue (timeoutMs : UInt32) : UInt32 :=
  let reloadValue := timeoutMs / 6
  if reloadValue > maxReloadVal then maxReloadVal else reloadValue

/-- `setTimeout`. -/
def setTimeout (timeoutMs : UInt32) : Call (List IwdgWrite) := do
  Call.assert (timeoutMs > 0)
  return [.kr krKeyReload, .kr krKeyAccess, .pr 6, .rlr (reloadValue timeoutMs), .kr krKeyReload,
    .kr krKeyEnable]

/-- `watchdogInit`. -/
def watchdogInit (csr : RccCsr) (w : Watchdog) : Call Watchdog := do
  Call.assert (w.wdgTimeoutMs = 0)
  Call.assert (csr.lsion = true)
  if csr.lsirdy then
    return { w with
      triggeredReset := w.triggeredReset || csr.iwdgrstf
      mask := 0
      numWatchdogs := 0 }
  else .error .hang

/-- The critical section of `watchdogCreate`: the new watchdog. -/
def createSection (w : Watchdog) : Call (Watchdog × Nat) :=
  if w.numWatchdogs ≥ maxNumWatchdogs then .error .assertion
  else do
    let newId := w.numWatchdogs.toNat
    let bit ← shiftedOne newId
    return ({ w with numWatchdogs := w.numWatchdogs + 1, mask := w.mask ||| bit }, newId)

/-- The critical section of `watchdogReset`. -/
def resetSection (id : Int) (w : Watchdog) : Call (Watchdog × List IwdgWrite) := do
  let bit ← shiftedOne id
  let mask := w.mask ||| bit
  let top ← shiftedOne w.numWatchdogs.toNat
  let validBitsMask := top - 1
  if mask &&& validBitsMask = validBitsMask then
    return ({ w with mask := 0 }, [.kr krKeyReload])
  else return ({ w with mask }, [])

/-! ## Threads -/

/-- Where a thread is. -/
inductive Pc
  | idle
  /-- in `watchdogCreate`, behind the critical section -/
  | compare (timeoutMs : UInt32)
  /-- in front of `setTimeout` -/
  | program (timeoutMs : UInt32)
  /-- in front of the assignment to `_wdg_timeout_ms` -/
  | store (timeoutMs : UInt32)
  /-- in `watchdogReset`, in front of the critical section -/
  | reset (id : Int)
deriving DecidableEq, Repr

/-- The thread is in `watchdogCreate`. -/
def Pc.creates : Pc → Bool
  | .compare _ | .program _ | .store _ => true
  | .idle | .reset _ => false

/-- What happened to the watchdogs. -/
inductive Event
  | created (id : Nat)
  | reset (id : Nat)
  /-- `watchdogReset` reloaded the hardware -/
  | reload
deriving DecidableEq, Repr

/-- The module, the hardware and the threads.  `iwdg` is all that was
written to the hardware, `history` what happened, latest first. -/
structure System where
  wd : Watchdog
  iwdg : List IwdgWrite := []
  threads : Nat → Pc := fun _ => .idle
  history : List Event := []

inductive Input
  /-- the thread calls `watchdogCreate` -/
  | create (timeoutMs : UInt32)
  /-- the thread calls `watchdogReset` -/
  | reset (id : Int)
  /-- the next step of the call it is in -/
  | go
deriving DecidableEq, Repr

namespace System

/-- Thread `i` moves on to `pc`. -/
def goto (s : System) (i : Nat) (pc : Pc) : System :=
  { s with threads := Function.update s.threads i pc }

theorem goto_threads (s : System) (i : Nat) (pc : Pc) :
    (s.goto i pc).threads = Function.update s.threads i pc := rfl

/-- The effect of the critical section of `watchdogReset`. -/
def stepReset (s : System) (i : Nat) (id : Int) : Call System := do
  let (wd, writes) ← s.wd.resetSection id
  let history := .reset id.toNat :: s.history
  return { s with
    wd
    iwdg := s.iwdg ++ writes
    threads := Function.update s.threads i .idle
    history := if writes = [] then history else .reload :: history }

/-- One step of thread `i`.  What does not belong to the place it is at has
no effect. -/
def step (s : System) (a : Nat × Input) : Call System :=
  let i := a.1
  match s.threads i, a.2 with
  | .idle, .create timeoutMs => do
      Call.assert (timeoutMs > 0)
      let (wd, newId) ← s.wd.createSection
      return { s with
        wd
        threads := Function.update s.threads i (.compare timeoutMs)
        history := .created newId :: s.history }
  | .idle, .reset id => do
      Call.assert (0 ≤ id ∧ id < s.wd.numWatchdogs.toNat)
      return s.goto i (.reset id)
  | .compare timeoutMs, .go =>
      .ok (s.goto i (if timeoutMs > s.wd.wdgTimeoutMs then .program timeoutMs else .idle))
  | .program timeoutMs, .go => do
      let writes ← setTimeout timeoutMs
      return { s.goto i (.store timeoutMs) with iwdg := s.iwdg ++ writes }
  | .store timeoutMs, .go =>
      .ok { s.goto i .idle with wd := { s.wd with wdgTimeoutMs := timeoutMs } }
  | .reset id, .go => s.stepReset i id
  | _, _ => .ok s

/-- The module as `watchdogInit` leaves it, with all threads outside of it. -/
def Init (s : System) : Prop :=
  s.iwdg = [] ∧ s.threads = (fun _ => .idle) ∧ s.history = [] ∧
    ∃ csr w, watchdogInit csr w = .ok s.wd

def machine : Machine System (Nat × Input) := Machine.ofFunction Init step

/-- The watchdog was created or reset since the latest reload. -/
def Touched (history : List Event) (id : Nat) : Prop :=
  .created id ∈ history.takeWhile (· ≠ .reload) ∨ .reset id ∈ history.takeWhile (· ≠ .reload)

/-- The reload values that were programmed, in order. -/
def programmed (s : System) : List UInt32 := s.iwdg.filterMap IwdgWrite.reloadValue?

/-- The steps that create no watchdog while another one is being created. -/
def OneAtATime (s : System) (a : Nat × Input) (_ : System) : Prop :=
  ∀ timeoutMs, a.2 = .create timeoutMs → ∀ i, (s.threads i).creates = false

end System

/-! ## The critical sections -/

section Sections

variable {w w' : Watchdog} {id : Int}

theorem shiftedOne_eq {count : Int} (h : 0 ≤ count ∧ count < 32) :
    shiftedOne count = .ok (BitSet.single count.toNat) := if_pos h

theorem createSection_eq {n : Nat} (h : createSection w = .ok (w', n)) :
    w.numWatchdogs.toNat < 31 ∧ n = w.numWatchdogs.toNat ∧
      w' = { w with
        numWatchdogs := w.numWatchdogs + 1
        mask := w.mask ||| BitSet.single w.numWatchdogs.toNat } := by
  rw [createSection] at h
  by_cases hfull : w.numWatchdogs ≥ maxNumWatchdogs
  · rw [if_pos hfull] at h
    cases h
  · have hlt : w.numWatchdogs.toNat < 31 := by
      rw [ge_iff_le, UInt8.not_le, UInt8.lt_iff_toNat_lt] at hfull
      exact hfull
    have hbit := shiftedOne_eq (show 0 ≤ (w.numWatchdogs.toNat : Int) ∧ _ by omega)
    simp only [if_neg hfull, hbit, Call.ok_bind] at h
    cases Call.pure_eq_ok.mp h
    exact ⟨hlt, rfl, rfl⟩

/-- The two outcomes of a reset: the round is complete, or it is not. -/
theorem resetSection_eq (hid : 0 ≤ id ∧ id < w.numWatchdogs.toNat)
    (hnum : w.numWatchdogs.toNat ≤ 31) :
    (∀ i, i < w.numWatchdogs.toNat → i = id.toNat ∨ BitSet.Holds w.mask i) ∧
        resetSection id w = .ok ({ w with mask := 0 }, [.kr krKeyReload]) ∨
    (¬∀ i, i < w.numWatchdogs.toNat → i = id.toNat ∨ BitSet.Holds w.mask i) ∧
        resetSection id w = .ok ({ w with mask := w.mask ||| BitSet.single id.toNat }, []) := by
  have hlt : id.toNat < 32 := by omega
  have hcovers := BitSet.covers_iff (m := w.mask ||| BitSet.single id.toNat)
    (show w.numWatchdogs.toNat < 32 by omega)
  simp only [BitSet.holds_insert hlt] at hcovers
  have hbit := shiftedOne_eq (show 0 ≤ id ∧ id < 32 by omega)
  have htop := shiftedOne_eq (show 0 ≤ (w.numWatchdogs.toNat : Int) ∧ _ by omega)
  simp only [← hcovers, resetSection, hbit, htop, Call.ok_bind]
  by_cases h : (w.mask ||| BitSet.single id.toNat) &&& BitSet.below w.numWatchdogs.toNat
      = BitSet.below w.numWatchdogs.toNat
  · exact Or.inl ⟨h, if_pos h⟩
  · exact Or.inr ⟨h, if_neg h⟩

/-- A longer timeout is programmed as no smaller a reload value. -/
theorem reloadValue_mono {t t' : UInt32} (h : t ≤ t') : reloadValue t ≤ reloadValue t' := by
  have hdiv : t.toNat / 6 ≤ t'.toNat / 6 := Nat.div_le_div_right (UInt32.le_iff_toNat_le.mp h)
  have hval : ∀ t : UInt32, (reloadValue t).toNat = min (t.toNat / 6) 0xFFF := by
    intro t
    have hsix : (t / 6).toNat = t.toNat / 6 := UInt32.toNat_div t 6
    have hmax : maxReloadVal.toNat = 0xFFF := rfl
    rw [reloadValue]
    split
    · rename_i hgt
      rw [gt_iff_lt, UInt32.lt_iff_toNat_lt] at hgt
      omega
    · rename_i hle
      rw [gt_iff_lt, UInt32.lt_iff_toNat_lt] at hle
      omega
  rw [UInt32.le_iff_toNat_le, hval, hval]
  omega

end Sections

namespace System

/-! ## What a step can do -/

/-- The steps of thread `i`, with the state behind each. -/
inductive Effect (s : System) (i : Nat) : Input → System → Prop
  | created {timeoutMs : UInt32} : s.threads i = .idle → s.wd.numWatchdogs.toNat < 31 →
      Effect s i (.create timeoutMs)
        { s with
          wd := { s.wd with
            numWatchdogs := s.wd.numWatchdogs + 1
            mask := s.wd.mask ||| BitSet.single s.wd.numWatchdogs.toNat }
          threads := Function.update s.threads i (.compare timeoutMs)
          history := .created s.wd.numWatchdogs.toNat :: s.history }
  | called {id : Int} : s.threads i = .idle → 0 ≤ id ∧ id < s.wd.numWatchdogs.toNat →
      Effect s i (.reset id) (s.goto i (.reset id))
  | raise {timeoutMs : UInt32} : s.threads i = .compare timeoutMs →
      timeoutMs > s.wd.wdgTimeoutMs → Effect s i .go (s.goto i (.program timeoutMs))
  | enough {timeoutMs : UInt32} : s.threads i = .compare timeoutMs →
      Effect s i .go (s.goto i .idle)
  | program {timeoutMs : UInt32} {writes : List IwdgWrite} : s.threads i = .program timeoutMs →
      writes.filterMap IwdgWrite.reloadValue? = [reloadValue timeoutMs] →
      Effect s i .go { s.goto i (.store timeoutMs) with iwdg := s.iwdg ++ writes }
  | store {timeoutMs : UInt32} : s.threads i = .store timeoutMs →
      Effect s i .go { s.goto i .idle with wd := { s.wd with wdgTimeoutMs := timeoutMs } }
  | reset {id : Int} {s' : System} : s.threads i = .reset id → s.stepReset i id = .ok s' →
      Effect s i .go s'
  | none {a : Input} : Effect s i a s

variable {s s' : System} {i : Nat} {a : Input}

theorem step_effect (h : step s (i, a) = .ok s') : Effect s i a s' := by
  cases hpc : s.threads i with
  | idle =>
      cases a with
      | create timeoutMs =>
          simp only [step, hpc] at h
          obtain ⟨_, -, h⟩ := Call.bind_eq_ok.mp h
          obtain ⟨⟨wd, newId⟩, hnew, h⟩ := Call.bind_eq_ok.mp h
          obtain ⟨hlt, rfl, rfl⟩ := createSection_eq hnew
          cases Call.pure_eq_ok.mp h
          exact .created hpc hlt
      | reset id =>
          simp only [step, hpc] at h
          obtain ⟨_, hid, h⟩ := Call.bind_eq_ok.mp h
          cases Call.pure_eq_ok.mp h
          exact .called hpc (Call.assert_eq_ok.mp hid)
      | go =>
          simp only [step, hpc] at h
          cases h
          exact .none
  | compare timeoutMs =>
      cases a with
      | create _ | reset _ =>
          simp only [step, hpc] at h
          cases h
          exact .none
      | go =>
          simp only [step, hpc] at h
          cases h
          split
          · rename_i hgt
            exact .raise hpc hgt
          · exact .enough hpc
  | program timeoutMs =>
      cases a with
      | create _ | reset _ =>
          simp only [step, hpc] at h
          cases h
          exact .none
      | go =>
          simp only [step, hpc] at h
          obtain ⟨writes, hset, h⟩ := Call.bind_eq_ok.mp h
          obtain ⟨_, -, hset⟩ := Call.bind_eq_ok.mp hset
          cases Call.pure_eq_ok.mp hset
          cases Call.pure_eq_ok.mp h
          exact .program hpc rfl
  | store timeoutMs =>
      cases a with
      | create _ | reset _ =>
          simp only [step, hpc] at h
          cases h
          exact .none
      | go =>
          simp only [step, hpc] at h
          cases h
          exact .store hpc
  | reset id =>
      cases a with
      | create _ | reset _ =>
          simp only [step, hpc] at h
          cases h
          exact .none
      | go =>
          simp only [step, hpc] at h
          exact .reset hpc h

/-! ## The mask is the set of the watchdogs touched since the last reload -/

section Rounds

variable {history : List Event} {n w : Nat}

theorem touched_created : Touched (.created n :: history) w ↔ w = n ∨ Touched history w := by
  simp [Touched, or_assoc]

theorem touched_reset : Touched (.reset n :: history) w ↔ w = n ∨ Touched history w := by
  simp [Touched, or_left_comm]

theorem not_touched_reload : ¬Touched (.reload :: history) w := by
  simp [Touched]

/-- The invariant of every interleaving. -/
structure Inv (s : System) : Prop where
  num_le : s.wd.numWatchdogs.toNat ≤ 31
  mask_iff : ∀ w, BitSet.Holds s.wd.mask w ↔ Touched s.history w
  touched_lt : ∀ w, Touched s.history w → w < s.wd.numWatchdogs.toNat
  id_lt : ∀ j id, s.threads j = .reset id → 0 ≤ id ∧ id < s.wd.numWatchdogs.toNat

theorem inv_init (h : Init s) : Inv s := by
  obtain ⟨-, hthreads, hhistory, csr, w, hinit⟩ := h
  obtain ⟨_, -, hinit⟩ := Call.bind_eq_ok.mp hinit
  obtain ⟨_, -, hinit⟩ := Call.bind_eq_ok.mp hinit
  have hwd : s.wd.mask = 0 ∧ s.wd.numWatchdogs = 0 := by
    split at hinit
    · rw [← Call.pure_eq_ok.mp hinit]
      exact ⟨rfl, rfl⟩
    · cases hinit
  have hnone : ∀ w, ¬Touched s.history w := by
    intro w
    rw [hhistory]
    simp [Touched]
  refine ⟨?_, ?_, ?_, ?_⟩
  · rw [hwd.2]
    decide
  · intro w
    rw [hwd.1]
    exact ⟨fun hw => absurd hw (BitSet.not_holds_zero w), fun hw => absurd hw (hnone w)⟩
  · intro w hw
    exact absurd hw (hnone w)
  · intro j id hj
    rw [hthreads] at hj
    cases hj

/-- A thread that moves on to anything but `watchdogReset` leaves the IDs of
the pending resets as they are. -/
theorem Inv.id_lt_update (hI : Inv s) (pc : Pc) (hpc : ∀ id, pc ≠ .reset id) (j : Nat) (id : Int)
    (hj : Function.update s.threads i pc j = .reset id) :
    0 ≤ id ∧ id < s.wd.numWatchdogs.toNat := by
  by_cases hji : j = i
  · subst hji
    rw [Function.update_self] at hj
    exact absurd hj (hpc id)
  · rw [Function.update_of_ne hji] at hj
    exact hI.id_lt j id hj

/-- The two outcomes of the critical section of `watchdogReset`. -/
theorem stepReset_eq (hI : Inv s) {id : Int} (hpc : s.threads i = .reset id)
    (h : s.stepReset i id = .ok s') :
    (∀ w, w < s.wd.numWatchdogs.toNat → Touched (.reset id.toNat :: s.history) w) ∧
        s' = { s with
          wd := { s.wd with mask := 0 }
          iwdg := s.iwdg ++ [.kr krKeyReload]
          threads := Function.update s.threads i .idle
          history := .reload :: .reset id.toNat :: s.history } ∨
    (¬∀ w, w < s.wd.numWatchdogs.toNat → Touched (.reset id.toNat :: s.history) w) ∧
        s' = { s with
          wd := { s.wd with mask := s.wd.mask ||| BitSet.single id.toNat }
          iwdg := s.iwdg ++ []
          threads := Function.update s.threads i .idle
          history := .reset id.toNat :: s.history } := by
  simp only [touched_reset, ← hI.mask_iff]
  rcases resetSection_eq (hI.id_lt i id hpc) hI.num_le with ⟨hall, heq⟩ | ⟨hnot, heq⟩
  · rw [stepReset, heq, Call.ok_bind] at h
    exact Or.inl ⟨hall, (Call.pure_eq_ok.mp h).symm⟩
  · rw [stepReset, heq, Call.ok_bind] at h
    exact Or.inr ⟨hnot, (Call.pure_eq_ok.mp h).symm⟩

theorem inv_step (hI : Inv s) (h : step s (i, a) = .ok s') : Inv s' := by
  cases step_effect h with
  | created hpc hlt =>
      have hnum : (s.wd.numWatchdogs + 1).toNat = s.wd.numWatchdogs.toNat + 1 := by
        rw [UInt8.toNat_add]
        exact Nat.mod_eq_of_lt (show s.wd.numWatchdogs.toNat + 1 < 256 by omega)
      refine ⟨?_, fun w => ?_, fun w hw => ?_, fun j id hj => ?_⟩
      · simp only [hnum]
        omega
      · rw [BitSet.holds_insert (by omega), touched_created, hI.mask_iff]
      · simp only [hnum]
        rcases touched_created.mp hw with rfl | hw
        · omega
        · have := hI.touched_lt w hw
          omega
      · have hlt := hI.id_lt_update _ (fun _ hcontra => by cases hcontra) j id hj
        simp only [hnum]
        omega
  | called hpc hid =>
      refine ⟨hI.num_le, hI.mask_iff, hI.touched_lt, fun j id' hj => ?_⟩
      by_cases hji : j = i
      · subst hji
        rw [goto_threads, Function.update_self] at hj
        cases hj
        exact hid
      · rw [goto_threads, Function.update_of_ne hji] at hj
        exact hI.id_lt j id' hj
  | raise hpc hgt | enough hpc | program hpc hwrites | store hpc =>
      exact ⟨hI.num_le, hI.mask_iff, hI.touched_lt,
        hI.id_lt_update _ fun _ hcontra => by cases hcontra⟩
  | @reset id _ hpc heq =>
      have hid := hI.id_lt i id hpc
      have hids := hI.id_lt_update (i := i) .idle fun _ hcontra => by cases hcontra
      rcases stepReset_eq hI hpc heq with ⟨-, rfl⟩ | ⟨-, rfl⟩
      · refine ⟨hI.num_le, fun w => ?_, fun w hw => ?_, hids⟩
        · exact ⟨fun hw => absurd hw (BitSet.not_holds_zero w),
            fun hw => absurd hw not_touched_reload⟩
        · exact absurd hw not_touched_reload
      · refine ⟨hI.num_le, fun w => ?_, fun w hw => ?_, hids⟩
        · rw [BitSet.holds_insert (by have := hI.num_le; omega), touched_reset, hI.mask_iff]
        · rcases touched_reset.mp hw with rfl | hw
          · exact show id.toNat < s.wd.numWatchdogs.toNat by omega
          · exact hI.touched_lt w hw
  | none => exact hI

theorem inv_reachable (h : machine.Reachable s) : Inv s :=
  Machine.Reachable.invariant (I := Inv) (fun _ => inv_init)
    (fun _ a _ _ hI hst => inv_step (i := a.1) (a := a.2) hI hst) h

end Rounds

/-! ## Creations one at a time -/

section Creations

/-- The invariant of the runs in which creations do not overlap: what is
programmed grows, and stays below the longest timeout, counting one that is
about to be stored. -/
structure SeqInv (s : System) : Prop where
  alone : ∀ i j, (s.threads i).creates = true → (s.threads j).creates = true → i = j
  raises : ∀ i t, s.threads i = .program t ∨ s.threads i = .store t → s.wd.wdgTimeoutMs ≤ t
  le : ∀ r ∈ s.programmed, r ≤ reloadValue s.wd.wdgTimeoutMs ∨
    ∃ i t, s.threads i = .store t ∧ r ≤ reloadValue t
  sorted : s.programmed.Pairwise (· ≤ ·)

theorem seqInv_init (h : Init s) : SeqInv s := by
  obtain ⟨hiwdg, hthreads, -, -⟩ := h
  have hnone : s.programmed = [] := by
    rw [programmed, hiwdg]
    rfl
  refine ⟨?_, ?_, ?_, ?_⟩
  · intro i j hi
    rw [hthreads] at hi
    cases hi
  · intro i t hi
    rw [hthreads] at hi
    rcases hi with hi | hi <;> cases hi
  · simp [hnone]
  · simp [hnone]

/-- Only the thread that moves may become the one in `watchdogCreate`. -/
theorem SeqInv.alone_update (hS : SeqInv s) {pc : Pc}
    (hpc : pc.creates = true → ∀ j, (s.threads j).creates = true → j = i) (j k : Nat)
    (hj : (Function.update s.threads i pc j).creates = true)
    (hk : (Function.update s.threads i pc k).creates = true) : j = k := by
  by_cases hji : j = i <;> by_cases hki : k = i
  · rw [hji, hki]
  · rw [hji, Function.update_self] at hj
    rw [Function.update_of_ne hki] at hk
    rw [hji, hpc hj k hk]
  · rw [hki, Function.update_self] at hk
    rw [Function.update_of_ne hji] at hj
    rw [hki, hpc hk j hj]
  · rw [Function.update_of_ne hji] at hj
    rw [Function.update_of_ne hki] at hk
    exact hS.alone j k hj hk

/-- A thread moves on and programs nothing. -/
theorem SeqInv.move (hS : SeqInv s) (pc : Pc)
    (hthreads : s'.threads = Function.update s.threads i pc)
    (hwd : s'.wd.wdgTimeoutMs = s.wd.wdgTimeoutMs) (hprog : s'.programmed = s.programmed)
    (hfrom : ∀ t, s.threads i ≠ .store t)
    (halone : pc.creates = true → ∀ j, (s.threads j).creates = true → j = i)
    (hraises : ∀ t, pc = .program t ∨ pc = .store t → s.wd.wdgTimeoutMs ≤ t) : SeqInv s' := by
  refine ⟨fun j k hj hk => ?_, fun j t hj => ?_, fun r hr => ?_, ?_⟩
  · rw [hthreads] at hj hk
    exact hS.alone_update halone j k hj hk
  · rw [hthreads] at hj
    rw [hwd]
    by_cases hji : j = i
    · rw [hji, Function.update_self] at hj
      exact hraises t hj
    · rw [Function.update_of_ne hji] at hj
      exact hS.raises j t hj
  · rw [hprog] at hr
    rw [hwd]
    rcases hS.le r hr with hle | ⟨j, t, hj, hle⟩
    · exact Or.inl hle
    · have hji : j ≠ i := by
        rintro rfl
        exact hfrom t hj
      refine Or.inr ⟨j, t, ?_, hle⟩
      rw [hthreads, Function.update_of_ne hji, hj]
  · rw [hprog]
    exact hS.sorted

/-- While one thread is about to program or to store a timeout, no other
thread is. -/
theorem SeqInv.only (hS : SeqInv s) {pc : Pc} (hpc : s.threads i = pc) (hcreates : pc.creates = true)
    (j : Nat) (hj : (s.threads j).creates = true) : j = i := by
  refine hS.alone j i hj ?_
  rw [hpc, hcreates]

theorem SeqInv.program (hS : SeqInv s) {timeoutMs : UInt32} {writes : List IwdgWrite}
    (hpc : s.threads i = .program timeoutMs)
    (hwrites : writes.filterMap IwdgWrite.reloadValue? = [reloadValue timeoutMs]) :
    SeqInv { s.goto i (.store timeoutMs) with iwdg := s.iwdg ++ writes } := by
  have honly := hS.only hpc rfl
  have hraise := hS.raises i timeoutMs (Or.inl hpc)
  have hprog : programmed { s.goto i (.store timeoutMs) with iwdg := s.iwdg ++ writes }
      = s.programmed ++ [reloadValue timeoutMs] := by
    rw [programmed, List.filterMap_append, hwrites]
    rfl
  have hle : ∀ r ∈ s.programmed, r ≤ reloadValue timeoutMs := by
    intro r hr
    rcases hS.le r hr with hle | ⟨j, t, hj, -⟩
    · exact UInt32.le_trans hle (reloadValue_mono hraise)
    · obtain rfl : j = i := honly j (by rw [hj]; rfl)
      rw [hpc] at hj
      cases hj
  refine ⟨hS.alone_update fun _ => honly, fun j t hj => ?_, fun r hr => Or.inr ?_, ?_⟩
  · by_cases hji : j = i
    · rw [goto_threads, hji, Function.update_self] at hj
      rcases hj with hj | hj <;> cases hj
      exact hraise
    · rw [goto_threads, Function.update_of_ne hji] at hj
      exact hS.raises j t hj
  · refine ⟨i, timeoutMs, Function.update_self .., ?_⟩
    rw [hprog] at hr
    rcases List.mem_append.mp hr with hr | hr
    · exact hle r hr
    · rw [List.mem_singleton.mp hr]
      exact UInt32.le_refl _
  · rw [hprog, List.pairwise_append]
    refine ⟨hS.sorted, List.pairwise_singleton _ _, fun r hr r' hr' => ?_⟩
    rw [List.mem_singleton.mp hr']
    exact hle r hr

theorem SeqInv.store (hS : SeqInv s) {timeoutMs : UInt32} (hpc : s.threads i = .store timeoutMs) :
    SeqInv { s.goto i .idle with wd := { s.wd with wdgTimeoutMs := timeoutMs } } := by
  have honly := hS.only hpc rfl
  have hraise := hS.raises i timeoutMs (Or.inr hpc)
  refine ⟨hS.alone_update fun _ => honly, fun j t hj => ?_, fun r hr => Or.inl ?_, hS.sorted⟩
  · by_cases hji : j = i
    · rw [goto_threads, hji, Function.update_self] at hj
      rcases hj with hj | hj <;> cases hj
    · rw [goto_threads, Function.update_of_ne hji] at hj
      have hcreates : (s.threads j).creates = true := by
        rcases hj with hj | hj <;> rw [hj] <;> rfl
      exact absurd (honly j hcreates) hji
  · rcases hS.le r hr with hle | ⟨j, t, hj, hle⟩
    · exact UInt32.le_trans hle (reloadValue_mono hraise)
    · obtain rfl : j = i := honly j (by rw [hj]; rfl)
      rw [hpc] at hj
      cases hj
      exact hle

theorem seqInv_step (hI : Inv s) (hS : SeqInv s) (h : step s (i, a) = .ok s')
    (hone : OneAtATime s (i, a) s') : SeqInv s' := by
  cases step_effect h with
  | @created timeoutMs hpc hlt =>
      refine hS.move (.compare timeoutMs) rfl rfl rfl (by simp [hpc]) (fun _ j hj => ?_)
        fun t ht => ?_
      · rw [hone timeoutMs rfl j] at hj
        cases hj
      · rcases ht with ht | ht <;> cases ht
  | @called id hpc hid =>
      refine hS.move (.reset id) rfl rfl rfl (by simp [hpc]) (fun hc => by cases hc)
        fun t ht => ?_
      rcases ht with ht | ht <;> cases ht
  | @raise timeoutMs hpc hgt =>
      refine hS.move (.program timeoutMs) rfl rfl rfl (by simp [hpc])
        (fun _ => hS.only hpc rfl) fun t ht => ?_
      rcases ht with ht | ht <;> cases ht
      exact UInt32.le_of_lt hgt
  | enough hpc =>
      refine hS.move .idle rfl rfl rfl (by simp [hpc]) (fun hc => by cases hc) fun t ht => ?_
      rcases ht with ht | ht <;> cases ht
  | program hpc hwrites => exact hS.program hpc hwrites
  | store hpc => exact hS.store hpc
  | reset hpc heq =>
      have hstart : ∀ t, s.threads i ≠ .store t := by simp [hpc]
      have hidle : ∀ t, Pc.idle = .program t ∨ Pc.idle = .store t → s.wd.wdgTimeoutMs ≤ t := by
        intro t ht
        rcases ht with ht | ht <;> cases ht
      rcases stepReset_eq hI hpc heq with ⟨-, rfl⟩ | ⟨-, rfl⟩
      · refine hS.move .idle rfl rfl ?_ hstart (fun hc => by cases hc) hidle
        simp [programmed, IwdgWrite.reloadValue?]
      · refine hS.move .idle rfl rfl ?_ hstart (fun hc => by cases hc) hidle
        simp [programmed]
  | none => exact hS

theorem seqInv_reachable (h : (machine.restrict OneAtATime).Reachable s) : SeqInv s := by
  refine Machine.Reachable.invariant (I := SeqInv) (fun _ => seqInv_init) ?_ h
  intro s a s' hr hS hst
  exact seqInv_step (i := a.1) (a := a.2) (inv_reachable hr.of_restrict) hS hst.1 hst.2

end Creations

/-! ## The guarantees -/

/-- A step that does not return has failed an assertion. -/
theorem step_error (hI : Inv s) {e : Halt} (h : step s (i, a) = .error e) : e = .assertion := by
  cases hpc : s.threads i with
  | idle =>
      cases a with
      | create timeoutMs =>
          simp only [step, hpc] at h
          by_cases ht : timeoutMs > 0
          · rw [Call.assert_of_true ht, Call.ok_bind, createSection] at h
            by_cases hfull : s.wd.numWatchdogs ≥ maxNumWatchdogs
            · rw [if_pos hfull] at h
              cases h
              rfl
            · have hnum := hI.num_le
              have hbit := shiftedOne_eq (show 0 ≤ (s.wd.numWatchdogs.toNat : Int) ∧ _ by omega)
              simp only [if_neg hfull, hbit, Call.ok_bind] at h
              cases h
          · rw [Call.assert_of_false ht] at h
            cases h
            rfl
      | reset id =>
          simp only [step, hpc] at h
          by_cases hid : 0 ≤ id ∧ id < s.wd.numWatchdogs.toNat
          · rw [Call.assert_of_true hid] at h
            cases h
          · rw [Call.assert_of_false hid] at h
            cases h
            rfl
      | go =>
          simp only [step, hpc] at h
          cases h
  | compare timeoutMs =>
      cases a <;> simp only [step, hpc] at h <;> cases h
  | program timeoutMs =>
      cases a with
      | create _ | reset _ =>
          simp only [step, hpc] at h
          cases h
      | go =>
          simp only [step, hpc, setTimeout] at h
          by_cases ht : timeoutMs > 0
          · rw [Call.assert_of_true ht] at h
            cases h
          · rw [Call.assert_of_false ht] at h
            cases h
            rfl
  | store timeoutMs =>
      cases a <;> simp only [step, hpc] at h <;> cases h
  | reset id =>
      cases a with
      | create _ | reset _ =>
          simp only [step, hpc] at h
          cases h
      | go =>
          simp only [step, hpc, stepReset] at h
          rcases resetSection_eq (hI.id_lt i id hpc) hI.num_le with ⟨-, heq⟩ | ⟨-, heq⟩
          all_goals
            rw [heq] at h
            cases h

/-- No shift count reaches 32; `watchdogReset` reloads the hardware exactly
when it finds all watchdogs created or reset since the last time it did; and
over creations that do not overlap the programmed timeout never decreases. -/
theorem watchdog_aggregation :
    (∀ s, machine.Reachable s → ∀ a, s.step a ≠ .error .bounds) ∧
    (∀ s i id s', machine.Reachable s → s.threads i = .reset id → s.step (i, .go) = .ok s' →
      (s'.iwdg = s.iwdg ++ [.kr krKeyReload] ↔
        ∀ w, w < s.wd.numWatchdogs.toNat → Touched (.reset id.toNat :: s.history) w) ∧
      (s'.iwdg = s.iwdg ++ [.kr krKeyReload] ∨ s'.iwdg = s.iwdg)) ∧
    (∀ s, (machine.restrict OneAtATime).Reachable s → s.programmed.Pairwise (· ≤ ·)) := by
  refine ⟨fun s hr a h => ?_, fun s i id s' hr hpc hst => ?_, fun s hr => ?_⟩
  · cases step_error (i := a.1) (a := a.2) (inv_reachable hr) h
  · have hreset : s.stepReset i id = .ok s' := by
      simpa only [step, hpc] using hst
    rcases stepReset_eq (inv_reachable hr) hpc hreset with ⟨hall, rfl⟩ | ⟨hnot, rfl⟩
    · exact ⟨⟨fun _ => hall, fun _ => rfl⟩, Or.inl rfl⟩
    · exact ⟨⟨fun h => by simp at h, fun h => absurd h hnot⟩, Or.inr (by simp)⟩
  · exact (seqInv_reachable hr).sorted

theorem reachable_of_ok {b : Nat × Input} (hr : (machine.restrict OneAtATime).Reachable s)
    (hst : step s b = .ok s') (hone : OneAtATime s b s') :
    (machine.restrict OneAtATime).Reachable s' := hr.step ⟨hst, hone⟩

/-- A thread creates a watchdog of 5000 ms, and its first reset reloads the
hardware. -/
theorem watchdog_aggregation_one_thread :
    ∃ s s' : System, s.step (0, .go) = .ok s' ∧ s'.iwdg = s.iwdg ++ [.kr krKeyReload] ∧
      s.programmed = [833] ∧ s.programmed.Pairwise (· ≤ ·) := by
  obtain ⟨hsafe, hround, hmono⟩ := watchdog_aggregation
  have h0 : (machine.restrict OneAtATime).Reachable { wd := {} } :=
    .init ⟨rfl, rfl, rfl, ⟨true, true, false⟩, {}, rfl⟩
  have h1 := reachable_of_ok (b := (0, .create 5000)) h0 (Eq.refl (Except.ok _)) fun _ _ _ => rfl
  have h2 := reachable_of_ok (b := (0, .go)) h1 (Eq.refl (Except.ok _)) fun _ h => by cases h
  have h3 := reachable_of_ok (b := (0, .go)) h2 (Eq.refl (Except.ok _)) fun _ h => by cases h
  have h4 := reachable_of_ok (b := (0, .go)) h3 (Eq.refl (Except.ok _)) fun _ h => by cases h
  have h5 := reachable_of_ok (b := (0, .reset 0)) h4 (Eq.refl (Except.ok _)) fun _ h => by cases h
  have hlast := hround _ 0 0 _ h5.of_restrict rfl (Eq.refl (Except.ok _))
  refine ⟨_, _, ?_, hlast.1.mpr ?_, rfl, hmono _ h5⟩
  · rfl
  · intro w hw
    obtain rfl : w = 0 := Nat.lt_one_iff.mp hw
    exact touched_reset.mpr (Or.inl rfl)

end System

end Watchdog

end UavcanAdapter
