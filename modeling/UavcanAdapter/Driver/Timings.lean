/-
# `Driver.Timings` — bit timings for a bit rate

A bit on the bus is a number of time quanta, and a quantum is a number of ticks
of the clock of the CAN cell, the prescaler.  The driver looks for the largest
number of quanta a bit can have at the bit rate that is asked for, and puts the
sample point as close to seven eighths of the bit as it can.

It finds timings iff there are any and the clock gives the bit rate, where both
divisions drop what is behind the point (`found_iff`); what it finds is within
the bounds of the cell, gives the bit rate as far as whole numbers tell, and has
the most quanta (`sound_of_found`).  Where only the last condition fails, the
function takes its own result for an error and stops the program
(`computeCANTimings_returns_iff`).
-/
import UavcanAdapter.Base.Call

namespace UavcanAdapter

open Base

namespace CanardSTM32

/-- `CANARD_STM32_ERROR_UNSUPPORTED_BIT_RATE`. -/
def errorUnsupportedBitRate : Int := 1000

/-- `CanardSTM32CANTimings`. -/
structure CanardSTM32CANTimings where
  bitRatePrescaler : UInt16
  bitSegment1 : UInt8
  bitSegment2 : UInt8
  maxResynchronizationJumpWidth : UInt8
  deriving DecidableEq

namespace CanardSTM32CANTimings

/-- The timings pass the checks of `canardSTM32Init`. -/
def Accepted (t : CanardSTM32CANTimings) : Prop :=
  (1 ≤ t.bitRatePrescaler ∧ t.bitRatePrescaler ≤ 1024) ∧
  (1 ≤ t.maxResynchronizationJumpWidth ∧ t.maxResynchronizationJumpWidth ≤ 4) ∧
  (1 ≤ t.bitSegment1 ∧ t.bitSegment1 ≤ 16) ∧ (1 ≤ t.bitSegment2 ∧ t.bitSegment2 ≤ 8)

/-- The time quanta of a bit. -/
def quanta (t : CanardSTM32CANTimings) : Nat := 1 + t.bitSegment1.toNat + t.bitSegment2.toNat

/-- The ticks of the clock in a bit. -/
def ticks (t : CanardSTM32CANTimings) : Nat := t.bitRatePrescaler.toNat * t.quanta

end CanardSTM32CANTimings

/-- `max_quanta_per_bit`. -/
def maxQuantaPerBit (targetBitrate : UInt32) : Nat := if targetBitrate ≥ 1000000 then 10 else 17

/-- The loop that looks for `bs1_bs2_sum`, from a value down; none where there
is no solution. -/
def searchSum (prescalerBs : Nat) : Nat → Option Nat
  | 0 => if prescalerBs % (1 + 0) ≠ 0 then none else some 0
  | sum + 1 =>
      if prescalerBs % (1 + (sum + 1)) ≠ 0 then
        if sum + 1 ≤ 2 then none else searchSum prescalerBs sum
      else some (sum + 1)

/-- `bs1`: seven eighths of the bit come before the sample point, rounded to
nearest unless that is too far. -/
def segment1 (sum : Nat) : Nat :=
  let bs1 := ((7 * sum - 1) + 4) / 8
  let bs2 := sum - bs1
  if 1000 * (1 + bs1) / (1 + bs1 + bs2) > 900 then (7 * sum - 1) / 8 else bs1

/-- What is written to `out_timings` in the end. -/
def outTimings (prescaler bs1 bs2 : Nat) : CanardSTM32CANTimings where
  bitRatePrescaler := UInt16.ofNat prescaler
  maxResynchronizationJumpWidth := 1
  bitSegment1 := UInt8.ofNat bs1
  bitSegment2 := UInt8.ofNat bs2

/-- `canardSTM32ComputeCANTimings`: the result, and what it writes to
`out_timings`. -/
def canardSTM32ComputeCANTimings (peripheralClockRate targetBitrate : UInt32) :
    Call (Int × Option CanardSTM32CANTimings) :=
  if targetBitrate < 1000 then .ok (-errorUnsupportedBitRate, none)
  else
    let prescalerBs := peripheralClockRate.toNat / targetBitrate.toNat
    match searchSum prescalerBs (maxQuantaPerBit targetBitrate - 1) with
    | none => .ok (-errorUnsupportedBitRate, none)
    | some sum =>
        let prescaler := prescalerBs / (1 + sum)
        if prescaler < 1 ∨ prescaler > 1024 then .ok (-errorUnsupportedBitRate, none)
        else
          let bs1 := segment1 sum
          let bs2 := sum - bs1
          let valid := 1 ≤ bs1 ∧ bs1 ≤ 16 ∧ 1 ≤ bs2 ∧ bs2 ≤ 8
          if targetBitrate.toNat ≠ peripheralClockRate.toNat / (prescaler * (1 + bs1 + bs2)) ∨
              ¬valid then
            .error .assertion
          else .ok (0, some (outTimings prescaler bs1 bs2))

/-! ## The search -/

/-- A bit of `n` quanta, each of `p` ticks, has `prescalerBs` ticks. -/
structure Solves (prescalerBs maxQuanta n p : Nat) : Prop where
  quanta : 3 ≤ n ∧ n ≤ maxQuanta
  prescaler : 1 ≤ p ∧ p ≤ 1024
  exact : p * n = prescalerBs

section Search

variable {prescalerBs sum sum' n p : Nat}

/-- What the search finds is the largest sum for which the number of ticks is a
multiple of the number of quanta. -/
theorem searchSum_eq_some : ∀ {sum : Nat}, 2 ≤ sum → searchSum prescalerBs sum = some sum' →
    (2 ≤ sum' ∧ sum' ≤ sum) ∧ prescalerBs % (1 + sum') = 0 ∧
      ∀ m, sum' < m → m ≤ sum → prescalerBs % (1 + m) ≠ 0
  | sum + 1, hsum, h => by
      rw [searchSum] at h
      by_cases hmod : prescalerBs % (1 + (sum + 1)) ≠ 0
      · rw [if_pos hmod] at h
        by_cases hle : sum + 1 ≤ 2
        · rw [if_pos hle] at h
          cases h
        · rw [if_neg hle] at h
          obtain ⟨hbounds, hzero, hlargest⟩ := searchSum_eq_some (by omega) h
          refine ⟨by omega, hzero, fun m hm hle' => ?_⟩
          by_cases hlast : m = sum + 1
          · rw [hlast]
            exact hmod
          · exact hlargest m hm (by omega)
      · rw [if_neg hmod] at h
        cases h
        exact ⟨⟨hsum, le_refl _⟩, not_not.mp hmod, fun m hm hle => by omega⟩

theorem searchSum_eq_none : ∀ {sum : Nat}, 2 ≤ sum → searchSum prescalerBs sum = none →
    ∀ m, 2 ≤ m → m ≤ sum → prescalerBs % (1 + m) ≠ 0
  | sum + 1, hsum, h => by
      rw [searchSum] at h
      by_cases hmod : prescalerBs % (1 + (sum + 1)) ≠ 0
      · rw [if_pos hmod] at h
        intro m hm hle'
        by_cases hlast : m = sum + 1
        · rw [hlast]
          exact hmod
        · by_cases hle : sum + 1 ≤ 2
          · omega
          · rw [if_neg hle] at h
            exact searchSum_eq_none (by omega) h m hm (by omega)
      · rw [if_neg hmod] at h
        cases h

/-- Both segments are within their bounds. -/
theorem segment1_bounds (h2 : 2 ≤ sum) (h16 : sum ≤ 16) :
    (1 ≤ segment1 sum ∧ segment1 sum ≤ 16) ∧ segment1 sum < sum ∧ sum - segment1 sum ≤ 8 := by
  have hall : ∀ sum ∈ Finset.Icc 2 16,
      (1 ≤ segment1 sum ∧ segment1 sum ≤ 16) ∧ segment1 sum < sum ∧ sum - segment1 sum ≤ 8 := by
    decide
  exact hall sum (Finset.mem_Icc.mpr ⟨h2, h16⟩)

/-- The sample point comes at nine tenths of the bit at the latest. -/
theorem samplePoint_le (h2 : 2 ≤ sum) (h16 : sum ≤ 16) :
    1000 * (1 + segment1 sum) / (1 + sum) ≤ 900 := by
  have hall : ∀ sum ∈ Finset.Icc 2 16, 1000 * (1 + segment1 sum) / (1 + sum) ≤ 900 := by
    decide
  exact hall sum (Finset.mem_Icc.mpr ⟨h2, h16⟩)

end Search

/-! ## What is found -/

/-- There are timings within the bounds of the search. -/
def Solvable (peripheralClockRate targetBitrate : UInt32) : Prop :=
  ∃ n p, Solves (peripheralClockRate.toNat / targetBitrate.toNat) (maxQuantaPerBit targetBitrate)
    n p

/-- The number of ticks in a bit, rounded down, gives the bit rate again. -/
def Exact (peripheralClockRate targetBitrate : UInt32) : Prop :=
  peripheralClockRate.toNat / (peripheralClockRate.toNat / targetBitrate.toNat) =
    targetBitrate.toNat

section Found

variable {peripheralClockRate targetBitrate : UInt32} {t : CanardSTM32CANTimings}

theorem maxQuantaPerBit_bounds (targetBitrate : UInt32) :
    3 ≤ maxQuantaPerBit targetBitrate ∧ maxQuantaPerBit targetBitrate ≤ 17 := by
  rw [maxQuantaPerBit]
  split <;> decide

/-- The function fails, takes its result for an error, or finds the timings with
the most quanta. -/
theorem computeCANTimings_cases (peripheralClockRate targetBitrate : UInt32) :
    (¬(1000 ≤ targetBitrate ∧ Solvable peripheralClockRate targetBitrate) ∧
        canardSTM32ComputeCANTimings peripheralClockRate targetBitrate =
          .ok (-errorUnsupportedBitRate, none)) ∨
      (1000 ≤ targetBitrate ∧ Solvable peripheralClockRate targetBitrate ∧
        ¬Exact peripheralClockRate targetBitrate ∧
        canardSTM32ComputeCANTimings peripheralClockRate targetBitrate = .error .assertion) ∨
      (1000 ≤ targetBitrate ∧ Exact peripheralClockRate targetBitrate ∧ ∃ n p,
        Solves (peripheralClockRate.toNat / targetBitrate.toNat) (maxQuantaPerBit targetBitrate)
          n p ∧
        (∀ n' p', Solves (peripheralClockRate.toNat / targetBitrate.toNat)
          (maxQuantaPerBit targetBitrate) n' p' → n' ≤ n) ∧
        canardSTM32ComputeCANTimings peripheralClockRate targetBitrate =
          .ok (0, some (outTimings p (segment1 (n - 1)) (n - 1 - segment1 (n - 1))))) := by
  rw [canardSTM32ComputeCANTimings]
  by_cases hrate : targetBitrate < 1000
  · rw [if_pos hrate]
    exact Or.inl ⟨fun h => absurd h.1 (UInt32.not_le.mpr hrate), rfl⟩
  rw [if_neg hrate]
  have hrate' : 1000 ≤ targetBitrate := UInt32.not_lt.mp hrate
  obtain ⟨hmin, hmax⟩ := maxQuantaPerBit_bounds targetBitrate
  dsimp only
  rw [Solvable, Exact]
  generalize maxQuantaPerBit targetBitrate = maxQuanta at hmin hmax ⊢
  generalize peripheralClockRate.toNat / targetBitrate.toNat = prescalerBs
  cases hsearch : searchSum prescalerBs (maxQuanta - 1) with
  | none =>
      refine Or.inl ⟨?_, rfl⟩
      rintro ⟨-, n, p, hs⟩
      obtain ⟨h3, hn'⟩ := hs.quanta
      have hne := searchSum_eq_none (by omega) hsearch (n - 1) (by omega) (by omega)
      have hn : 1 + (n - 1) = n := by omega
      rw [hn, ← hs.exact, Nat.mul_mod_left] at hne
      exact hne rfl
  | some sum =>
      obtain ⟨⟨h2, hle⟩, hmod, hlargest⟩ := searchSum_eq_some (by omega) hsearch
      have hbs : prescalerBs / (1 + sum) * (1 + sum) = prescalerBs :=
        Nat.div_mul_cancel (Nat.dvd_of_mod_eq_zero hmod)
      -- a smaller number of quanta takes a larger prescaler
      have hbest : ∀ n p, Solves prescalerBs maxQuanta n p → n ≤ 1 + sum := by
        intro n p hs
        by_contra hcon
        obtain ⟨h3, hn'⟩ := hs.quanta
        have hne := hlargest (n - 1) (by omega) (by omega)
        rw [show 1 + (n - 1) = n by omega, ← hs.exact, Nat.mul_mod_left] at hne
        exact hne rfl
      obtain ⟨⟨h1, h16⟩, hlt, h8⟩ := segment1_bounds h2 (by omega)
      dsimp only
      by_cases hp : prescalerBs / (1 + sum) < 1 ∨ prescalerBs / (1 + sum) > 1024
      · rw [if_pos hp]
        refine Or.inl ⟨?_, rfl⟩
        rintro ⟨-, n, p, hs⟩
        have hn := hbest n p hs
        have hprescaler := hs.prescaler
        have hquanta := hs.quanta
        have hexact := hs.exact
        rcases hp with hp | hp
        · have hpos : 0 < p * n := Nat.mul_pos (by omega) (by omega)
          rw [Nat.lt_one_iff.mp hp, Nat.zero_mul] at hbs
          omega
        · have hle' : p * n ≤ 1024 * (1 + sum) := Nat.mul_le_mul hprescaler.2 hn
          rw [hexact, ← hbs] at hle'
          have hq := Nat.le_of_mul_le_mul_right hle' (by omega)
          omega
      · rw [if_neg hp]
        have hsolves : Solves prescalerBs maxQuanta (1 + sum) (prescalerBs / (1 + sum)) :=
          ⟨by omega, by omega, hbs⟩
        have hsum : 1 + segment1 sum + (sum - segment1 sum) = 1 + sum := by omega
        rw [hsum, hbs]
        by_cases hexact : peripheralClockRate.toNat / prescalerBs = targetBitrate.toNat
        · rw [if_neg (by rw [not_or]; exact ⟨not_not.mpr hexact.symm, not_not.mpr (by omega)⟩)]
          refine Or.inr (Or.inr ⟨hrate', hexact, 1 + sum, _, hsolves, hbest, ?_⟩)
          rw [Nat.add_sub_cancel_left]
        · rw [if_pos (Or.inl (Ne.symm hexact))]
          exact Or.inr (Or.inl ⟨hrate', ⟨_, _, hsolves⟩, hexact, rfl⟩)

/-- The program is stopped iff the cell can have a bit rate near to the one that
is asked for, but not this. -/
theorem computeCANTimings_returns_iff :
    (canardSTM32ComputeCANTimings peripheralClockRate targetBitrate).Returns ↔
      ¬(1000 ≤ targetBitrate ∧ Solvable peripheralClockRate targetBitrate ∧
        ¬Exact peripheralClockRate targetBitrate) := by
  rcases computeCANTimings_cases peripheralClockRate targetBitrate with
    ⟨hnot, hrun⟩ | ⟨hrate, hsolvable, hinexact, hrun⟩ | ⟨-, hexact, n, p, -, -, hrun⟩
  · rw [hrun]
    exact iff_of_true ⟨_, rfl⟩ fun h => hnot ⟨h.1, h.2.1⟩
  · rw [hrun]
    exact iff_of_false (Call.not_returns_error _) (not_not.mpr ⟨hrate, hsolvable, hinexact⟩)
  · rw [hrun]
    exact iff_of_true ⟨_, rfl⟩ fun h => h.2.2 hexact

-- next to 300001 bits per second a clock of 36 MHz gives 302521
example : canardSTM32ComputeCANTimings 36000000 300001 = .error .assertion := rfl

/-- Timings that are found are taken by `canardSTM32Init` and give the bit rate
that was asked for; no timings with more quanta do, within the bounds of the
search; and the sample point comes at nine tenths of the bit at the latest. -/
theorem sound_of_found
    (h : canardSTM32ComputeCANTimings peripheralClockRate targetBitrate = .ok (0, some t)) :
    t.Accepted ∧ peripheralClockRate.toNat / t.ticks = targetBitrate.toNat ∧
      t.quanta ≤ maxQuantaPerBit targetBitrate ∧
      (∀ n p, Solves t.ticks (maxQuantaPerBit targetBitrate) n p → n ≤ t.quanta) ∧
      1000 * (1 + t.bitSegment1.toNat) / t.quanta ≤ 900 := by
  rcases computeCANTimings_cases peripheralClockRate targetBitrate with
    ⟨-, hrun⟩ | ⟨-, -, -, hrun⟩ | ⟨-, hexact, n, p, hsolves, hbest, hrun⟩
  · rw [hrun] at h
    cases h
  · rw [hrun] at h
    cases h
  rw [hrun] at h
  cases h
  obtain ⟨h3, hmax⟩ := hsolves.quanta
  obtain ⟨hp1, hp1024⟩ := hsolves.prescaler
  have h17 := (maxQuantaPerBit_bounds targetBitrate).2
  have hsum : 2 ≤ n - 1 := by omega
  obtain ⟨⟨h1, h16⟩, hlt, h8⟩ := segment1_bounds hsum (by omega)
  have hsample := samplePoint_le hsum (by omega)
  generalize segment1 (n - 1) = bs1 at h1 h16 hlt h8 hsample ⊢
  have hbs1 : (UInt8.ofNat bs1).toNat = bs1 := by
    rw [UInt8.toNat_ofNat', Nat.mod_eq_of_lt (by omega)]
  have hbs2 : (UInt8.ofNat (n - 1 - bs1)).toNat = n - 1 - bs1 := by
    rw [UInt8.toNat_ofNat', Nat.mod_eq_of_lt (by omega)]
  have hprescaler : (UInt16.ofNat p).toNat = p := by
    rw [UInt16.toNat_ofNat', Nat.mod_eq_of_lt (by omega)]
  have hquanta : (outTimings p bs1 (n - 1 - bs1)).quanta = n := by
    rw [CanardSTM32CANTimings.quanta, outTimings, hbs1, hbs2]
    omega
  have hticks : (outTimings p bs1 (n - 1 - bs1)).ticks =
      peripheralClockRate.toNat / targetBitrate.toNat := by
    rw [CanardSTM32CANTimings.ticks, hquanta, ← hsolves.exact, outTimings, hprescaler]
  rw [hticks, hquanta]
  refine ⟨?_, hexact, hmax, hbest, ?_⟩
  · simp only [CanardSTM32CANTimings.Accepted, outTimings, UInt8.le_iff_toNat_le,
      UInt16.le_iff_toNat_le, hbs1, hbs2, hprescaler]
    exact ⟨⟨hp1, hp1024⟩, ⟨by decide, by decide⟩, ⟨h1, h16⟩, Nat.sub_pos_of_lt hlt, h8⟩
  · rw [outTimings, hbs1]
    rwa [show 1 + (n - 1) = n by omega] at hsample

/-- A megabit per second from a clock of 36 MHz. -/
theorem sound_of_found_megabit :
    ∃ t, canardSTM32ComputeCANTimings 36000000 1000000 = .ok (0, some t) ∧ t.quanta = 9 ∧
      t.Accepted ∧ (36000000 : UInt32).toNat / t.ticks = (1000000 : UInt32).toNat ∧
      t.quanta ≤ maxQuantaPerBit 1000000 ∧
      (∀ n p, Solves t.ticks (maxQuantaPerBit 1000000) n p → n ≤ t.quanta) ∧
      1000 * (1 + t.bitSegment1.toNat) / t.quanta ≤ 900 := by
  have hrun : canardSTM32ComputeCANTimings 36000000 1000000 = .ok (0, some (outTimings 4 7 1)) := by
    rfl
  exact ⟨_, hrun, by decide, sound_of_found hrun⟩

end Found

end CanardSTM32

end UavcanAdapter
