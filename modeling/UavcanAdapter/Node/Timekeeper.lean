/-
# `Node.Timekeeper` — the time base of the bootloader's node

`impl_::MonotonicTimekeeper`: an absolute time in microseconds, counted up
from differences of the 16-bit system time.  A run is a sequence of samples
with the ticks between them; `calls` is the history of the values returned,
newest first, each with the ticks since start-up.

A sample adds `st2us` of the difference, and `st2us` works on 32 bits: it
is exact up to 4294 ticks and falls short above (`st2us_eq_iff`).  The time
lost at one sample never comes back (`Sampling.baseUsec_le`), so the values
are exact as long as no gap is longer (`getMicroseconds_exact_iff`).
-/
import UavcanAdapter.Base.Machine
import UavcanAdapter.Os.SystemTime

namespace UavcanAdapter

open Base

/-- `impl_::MonotonicTimekeeper`. -/
structure MonotonicTimekeeper where
  prevSampleAtSt : Systime := 0
  baseUsec : UInt64 := 0
  startedAtUsec : UInt64 := 0
deriving DecidableEq, Repr

namespace MonotonicTimekeeper

/-- `getMicroseconds`, called `ticks` system ticks after start-up. -/
def getMicroseconds (k : MonotonicTimekeeper) (ticks : Nat) : UInt64 × MonotonicTimekeeper :=
  let ts := chVTGetSystemTime ticks
  -- only the result of the macro becomes 64 bits wide
  let incrementUsec := (st2us (ts - k.prevSampleAtSt)).toUInt64
  let baseUsec := k.baseUsec + incrementUsec
  (baseUsec, { k with prevSampleAtSt := ts, baseUsec := baseUsec })

/-- The constructor, which takes a sample for `started_at_usec_`. -/
def construct (ticks : Nat) : MonotonicTimekeeper :=
  let (startedAtUsec, k) := getMicroseconds {} ticks
  { k with startedAtUsec := startedAtUsec }

/-! ## Sampling the time -/

/-- The timekeeper as it is sampled. -/
structure Sampling where
  /-- system ticks since start-up at the last sample -/
  ticks : Nat := 0
  keeper : MonotonicTimekeeper := {}
  calls : List (Nat × UInt64) := []

namespace Sampling

/-- A sample `gap` ticks after the last one. -/
def sample (s : Sampling) (gap : Nat) : Sampling :=
  let ticks := s.ticks + gap
  let (now, k) := s.keeper.getMicroseconds ticks
  { ticks, keeper := k, calls := (ticks, now) :: s.calls }

/-- The sample of the constructor, the first since start-up. -/
def start (ticks : Nat) : Sampling :=
  { ticks, keeper := construct ticks, calls := [(ticks, (construct ticks).startedAtUsec)] }

/-- The samples of a node, the system time being queried at least once
between its overflows. -/
def machine : Machine Sampling Nat where
  init s := ∃ ticks < 2 ^ 16, s = start ticks
  step s gap s' := gap < 2 ^ 16 ∧ s' = s.sample gap

/-! ## What a sample adds -/

/-- What holds at every sample: no time is gained. -/
structure Inv (s : Sampling) : Prop where
  prevSampleAtSt : s.keeper.prevSampleAtSt = chVTGetSystemTime s.ticks
  newest : s.calls.head? = some (s.ticks, s.keeper.baseUsec)
  baseUsec_le : s.keeper.baseUsec.toNat ≤ 100 * s.ticks

/-- Every value returned so far is the time since start-up. -/
def Exact (s : Sampling) : Prop := ∀ c ∈ s.calls, c.2.toNat = 100 * c.1

instance decExact (s : Sampling) : Decidable s.Exact :=
  inferInstanceAs (Decidable (∀ c ∈ s.calls, c.2.toNat = 100 * c.1))

/-- A sample adds what the macro makes of the gap. -/
theorem getMicroseconds_toNat {k : MonotonicTimekeeper} {ticks : Nat}
    (hk : k.prevSampleAtSt = chVTGetSystemTime ticks) (gap : Nat) :
    (k.getMicroseconds (ticks + gap)).1.toNat =
      (k.baseUsec.toNat + (st2us (UInt16.ofNat gap)).toNat) % 2 ^ 64 := by
  have hd : chVTGetSystemTime (ticks + gap) - k.prevSampleAtSt = UInt16.ofNat gap := by
    apply UInt16.toNat_inj.mp
    rw [hk, elapsed_toNat (Nat.le_add_right ticks gap), Nat.add_sub_cancel_left]
    rfl
  have hb : (k.getMicroseconds (ticks + gap)).1 =
      k.baseUsec + (st2us (UInt16.ofNat gap)).toUInt64 := by
    rw [← hd]
    rfl
  rw [hb, UInt64.toNat_add]
  rfl

/-- What the macro makes of a gap is at most its length, and its length iff
the product fits into 32 bits. -/
theorem st2us_gap {gap : Nat} (hg : gap < 2 ^ 16) :
    (st2us (UInt16.ofNat gap)).toNat ≤ 100 * gap ∧
      ((st2us (UInt16.ofNat gap)).toNat = 100 * gap ↔ gap ≤ 4294) := by
  have hn : (UInt16.ofNat gap).toNat = gap := UInt16.toNat_ofNat_of_lt' hg
  have hle := st2us_le (UInt16.ofNat gap)
  have heq := st2us_eq_iff (UInt16.ofNat gap)
  rw [hn] at hle heq
  exact ⟨hle, heq⟩

/-- One sample keeps the invariant, and is exact iff the last one was, the
gap is not too long and the sum fits. -/
theorem Inv.sample {s : Sampling} (hs : s.Inv) {gap : Nat} (hg : gap < 2 ^ 16) :
    (s.sample gap).Inv ∧
      ((s.sample gap).Exact ↔
        s.Exact ∧ gap ≤ 4294 ∧ 100 * (s.ticks + gap) < 2 ^ 64) := by
  have ht := getMicroseconds_toNat hs.prevSampleAtSt gap
  obtain ⟨hle, heq⟩ := st2us_gap hg
  have hbase := hs.baseUsec_le
  refine ⟨⟨rfl, rfl, ?_⟩, ?_⟩
  · show (s.keeper.getMicroseconds (s.ticks + gap)).1.toNat ≤ 100 * (s.ticks + gap)
    rw [ht]
    omega
  · have hlast : s.Exact → s.keeper.baseUsec.toNat = 100 * s.ticks := fun h =>
      h _ (List.mem_of_head? hs.newest)
    have hcons : (s.sample gap).Exact ↔
        (s.keeper.getMicroseconds (s.ticks + gap)).1.toNat = 100 * (s.ticks + gap) ∧ s.Exact :=
      List.forall_mem_cons
    rw [hcons, ht, ← heq]
    constructor
    · rintro ⟨hnow, hex⟩
      have hb := hlast hex
      refine ⟨hex, ?_, ?_⟩
      · omega
      · omega
    · rintro ⟨hex, hu, hlt⟩
      have hb := hlast hex
      refine ⟨?_, hex⟩
      rw [Nat.mod_eq_of_lt]
      · omega
      · omega

/-! ## Whole runs -/

/-- The sample of the constructor, taken of a tick counter that started at
zero. -/
theorem inv_start {ticks : Nat} (ht : ticks < 2 ^ 16) :
    (start ticks).Inv ∧ ((start ticks).Exact ↔ ticks ≤ 4294) := by
  have hzero : ({} : MonotonicTimekeeper).baseUsec.toNat = 0 := rfl
  have hunset : ({} : MonotonicTimekeeper).prevSampleAtSt = chVTGetSystemTime 0 := rfl
  have hnow := getMicroseconds_toNat hunset ticks
  obtain ⟨hle, heq⟩ := st2us_gap ht
  rw [Nat.zero_add, hzero, Nat.zero_add, Nat.mod_eq_of_lt (by omega)] at hnow
  refine ⟨⟨rfl, rfl, ?_⟩, ?_⟩
  · show (getMicroseconds {} ticks).1.toNat ≤ 100 * ticks
    rw [hnow]
    exact hle
  · have hsingle : (start ticks).Exact ↔ (getMicroseconds {} ticks).1.toNat = 100 * ticks :=
      List.forall_mem_singleton
    rw [hsingle, hnow, heq]

theorem run_ticks_le {s s' : Sampling} {gaps : List Nat} (h : machine.Run s gaps s') :
    s.ticks ≤ s'.ticks := by
  induction h with
  | nil => exact Nat.le_refl _
  | cons hst _ ih =>
      obtain ⟨-, rfl⟩ := hst
      exact Nat.le_trans (Nat.le_add_right _ _) ih

/-- Along a run, all values stay exact iff no gap is too long and the time
fits into 64 bits. -/
theorem run_exact_iff {s s' : Sampling} {gaps : List Nat} (hs : s.Inv)
    (h : machine.Run s gaps s') :
    s'.Exact ↔ s.Exact ∧ (∀ g ∈ gaps, g ≤ 4294) ∧ 100 * s'.ticks < 2 ^ 64 := by
  induction h with
  | @nil s =>
      have hlt : s.Exact → 100 * s.ticks < 2 ^ 64 := by
        intro hex
        have hb : s.keeper.baseUsec.toNat = 100 * s.ticks := hex _ (List.mem_of_head? hs.newest)
        have h64 := s.keeper.baseUsec.toNat_lt
        omega
      simpa using hlt
  | @cons s s₁ s' gap gaps hst hrest ih =>
      obtain ⟨hg, rfl⟩ := hst
      obtain ⟨hinv, hstep⟩ := hs.sample hg
      have hle : s.ticks + gap ≤ s'.ticks := run_ticks_le hrest
      rw [ih hinv, hstep, List.forall_mem_cons]
      constructor
      · rintro ⟨⟨hex, hgap, -⟩, hgaps, hlt⟩
        exact ⟨hex, ⟨hgap, hgaps⟩, hlt⟩
      · rintro ⟨hex, ⟨hgap, hgaps⟩, hlt⟩
        exact ⟨⟨hex, hgap, by omega⟩, hgaps, hlt⟩

/-- From start-up on, every value returned is the true time iff no two
consecutive samples, nor start-up and the first, are more than 4294 ticks
apart, for as long as 64 bits hold the time. -/
theorem getMicroseconds_exact_iff {s s' : Sampling} {gaps : List Nat} (h0 : machine.init s)
    (h : machine.Run s gaps s') :
    s'.Exact ↔ (∀ g ∈ s.ticks :: gaps, g ≤ 4294) ∧ 100 * s'.ticks < 2 ^ 64 := by
  obtain ⟨ticks, ht, rfl⟩ := h0
  obtain ⟨hinv, hex⟩ := inv_start ht
  rw [run_exact_iff hinv h, hex, List.forall_mem_cons, and_assoc]
  exact Iff.rfl

/-- `delayAfterDriverError` after a start without delay: two samples with a
second of sleep between them. -/
def driverError : Sampling := ((start 0).sample 0).sample 10000

theorem run_driverError : machine.Run (start 0) [0, 10000] driverError :=
  .cons ⟨by decide, rfl⟩ (.cons ⟨by decide, rfl⟩ .nil)

theorem getMicroseconds_exact_witness :
    driverError.Exact ↔ (∀ g ∈ [0, 0, 10000], g ≤ 4294) ∧ 100 * driverError.ticks < 2 ^ 64 :=
  getMicroseconds_exact_iff ⟨0, by decide, rfl⟩ run_driverError

/-- A second of sleep counts as 141 ms. -/
theorem getMicroseconds_not_exact :
    machine.init (start 0) ∧ machine.Run (start 0) [0, 10000] driverError ∧
      driverError.calls.head? = some (10000, 141007) ∧ ¬driverError.Exact :=
  ⟨⟨0, by decide, rfl⟩, run_driverError, by decide, by decide⟩

end Sampling

end MonotonicTimekeeper

end UavcanAdapter
