/-
# `Os.SystemTime` — the system tick of the kernel

The parts of `chvt.h` and `chthreads.c` that the bootloader and the
application use, with the settings both `chconf.h` share.  Time is counted
in ticks of 100 us since the tick counter was zero; the code sees this count
in 16 bits, so it tells how long ago something was up to a multiple of 2^16
ticks (`elapsed_toNat`).  The conversions work on 32 bits, and from some value
on they wrap.
-/
import Mathlib.Tactic

namespace UavcanAdapter

/-- `systime_t` at `CH_CFG_ST_RESOLUTION` 16. -/
abbrev Systime := UInt16

/-- `chVTGetSystemTime`, `ticks` system ticks after start-up. -/
def chVTGetSystemTime (ticks : Nat) : Systime := UInt16.ofNat ticks

/-- `chVTTimeElapsedSinceX`. -/
def chVTTimeElapsedSinceX (ticks : Nat) (start : Systime) : Systime :=
  chVTGetSystemTime ticks - start

/-- `MS2ST` at `CH_CFG_ST_FREQUENCY` 10000; the product is a `uint32_t`. -/
def ms2st (msec : UInt32) : Systime := ((msec * 10000 + 999) / 1000).toUInt16

/-- `US2ST`; the product is a `uint32_t`. -/
def us2st (usec : UInt32) : Systime := ((usec * 10000 + 999999) / 1000000).toUInt16

/-- `ST2US`; an `unsigned long` has 32 bits. -/
def st2us (n : Systime) : UInt32 := (n.toUInt32 * 1000000 + 10000 - 1) / 10000

/-- `TIME_INFINITE`. -/
def timeInfinite : Systime := 0xFFFF

/-- `chThdSleepS`: the ticks until the thread is woken up, none for never.
`chVTDoSetI` raises a delay to `CH_CFG_ST_TIMEDELTA`. -/
def chThdSleepS (time : Systime) : Option Nat :=
  if time = timeInfinite then none else some (max 2 time.toNat)

/-- `chThdSleepUntil`, called `ticks` system ticks after start-up. -/
def chThdSleepUntil (ticks : Nat) (time : Systime) : Option Nat :=
  let time := time - chVTGetSystemTime ticks
  if time > 0 then chThdSleepS time else some 0

/-! ## What the system time tells -/

@[simp] theorem chVTGetSystemTime_toNat (ticks : Nat) :
    (chVTGetSystemTime ticks).toNat = ticks % 2 ^ 16 := UInt16.toNat_ofNat'

theorem elapsed_toNat {t now : Nat} (h : t ≤ now) :
    (chVTGetSystemTime now - chVTGetSystemTime t).toNat = (now - t) % 2 ^ 16 := by
  rw [UInt16.toNat_sub, chVTGetSystemTime_toNat, chVTGetSystemTime_toNat]
  omega

/-- What a call with `r` ticks left does. -/
theorem chThdSleepUntil_eq {ticks r : Nat} {time : Systime}
    (hr : (time - chVTGetSystemTime ticks).toNat = r) :
    chThdSleepUntil ticks time =
      if r = 0 then some 0 else if r = 65535 then none else some (max 2 r) := by
  subst hr
  have hpos : time - chVTGetSystemTime ticks > 0 ↔ (time - chVTGetSystemTime ticks).toNat ≠ 0 := by
    rw [gt_iff_lt, UInt16.lt_iff_toNat_lt]
    exact Nat.pos_iff_ne_zero
  have hinf : time - chVTGetSystemTime ticks = timeInfinite ↔
      (time - chVTGetSystemTime ticks).toNat = 65535 := UInt16.toNat_inj.symm
  simp only [chThdSleepUntil, chThdSleepS, hpos, hinf, ne_eq, ite_not]

/-! ## The conversions -/

theorem ms2st_toNat (msec : UInt32) :
    (ms2st msec).toNat = (msec.toNat * 10000 + 999) % 2 ^ 32 / 1000 % 2 ^ 16 := by
  rw [ms2st, UInt32.toNat_toUInt16, UInt32.toNat_div, UInt32.toNat_add, UInt32.toNat_mul]
  have h1 : (10000 : UInt32).toNat = 10000 := rfl
  have h2 : (999 : UInt32).toNat = 999 := rfl
  have h3 : (1000 : UInt32).toNat = 1000 := rfl
  rw [h1, h2, h3, Nat.mod_add_mod]

theorem us2st_toNat (usec : UInt32) :
    (us2st usec).toNat = (usec.toNat * 10000 + 999999) % 2 ^ 32 / 1000000 := by
  rw [us2st, UInt32.toNat_toUInt16, UInt32.toNat_div, UInt32.toNat_add, UInt32.toNat_mul]
  have h1 : (10000 : UInt32).toNat = 10000 := rfl
  have h2 : (999999 : UInt32).toNat = 999999 := rfl
  have h3 : (1000000 : UInt32).toNat = 1000000 := rfl
  rw [h1, h2, h3, Nat.mod_add_mod]
  omega

theorem st2us_toNat (n : Systime) :
    (st2us n).toNat = (n.toNat * 1000000 + 9999) % 2 ^ 32 / 10000 := by
  rw [st2us, UInt32.toNat_div, UInt32.toNat_sub, UInt32.toNat_add, UInt32.toNat_mul]
  have h1 : (10000 : UInt32).toNat = 10000 := rfl
  have h2 : (1000000 : UInt32).toNat = 1000000 := rfl
  have h3 : (1 : UInt32).toNat = 1 := rfl
  have hn : n.toUInt32.toNat = n.toNat := rfl
  rw [h1, h2, h3, hn]
  omega

/-- A difference of ticks becomes microseconds as long as the product fits
into 32 bits, and falls short from there on. -/
theorem st2us_eq_iff (n : Systime) : (st2us n).toNat = 100 * n.toNat ↔ n.toNat ≤ 4294 := by
  have h := n.toNat_lt
  rw [st2us_toNat]
  omega

theorem st2us_le (n : Systime) : (st2us n).toNat ≤ 100 * n.toNat := by
  have h := n.toNat_lt
  rw [st2us_toNat]
  omega

/-- A period in microseconds becomes ticks, rounded up, as long as the sum
fits into 32 bits. -/
theorem us2st_eq_iff {usec : UInt32} (h : usec.toNat ≤ 1000000) :
    (us2st usec).toNat = (usec.toNat + 99) / 100 ↔ usec.toNat ≤ 429396 := by
  rw [us2st_toNat]
  omega

theorem us2st_le {usec : UInt32} (h : usec.toNat ≤ 1000000) :
    (us2st usec).toNat ≤ (usec.toNat + 99) / 100 := by
  rw [us2st_toNat]
  omega

end UavcanAdapter
