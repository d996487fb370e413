/-
# `Sensor.AirspeedLoop` — the timing of the airspeed thread

The inner loop of `AirspeedSenorThread::main`.  A pass adds the publication
period to the wake-up time, runs the body and sleeps until the wake-up time.
How long the body takes is given from outside; it includes the time until
the thread runs again after a sleep.  Real time is counted in ticks of
100 us, the wake-up time in 16 bits.

`sleeps` is the history of the calls of `chThdSleepUntil`, newest first; no
code reads it.
-/
import UavcanAdapter.Base.Machine
import UavcanAdapter.Os.SystemTime

namespace UavcanAdapter

open Base

/-- A value of `air_speed.pub_per` within its limits. -/
structure PubPer where
  usec : UInt32
  min_le : 10000 ≤ usec.toNat := by decide
  le_max : usec.toNat ≤ 1000000 := by decide

/-- The publication period in ticks, rounded up. -/
def PubPer.ticks (p : PubPer) : Nat := (p.usec.toNat + 99) / 100

namespace PubPer

theorem us2st_le (p : PubPer) : (us2st p.usec).toNat ≤ p.ticks := UavcanAdapter.us2st_le p.le_max

theorem ticks_le (p : PubPer) : p.ticks ≤ 10000 := by
  have h := p.le_max
  rw [ticks]
  omega

theorem le_ticks (p : PubPer) : 100 ≤ p.ticks := by
  have h := p.min_le
  rw [ticks]
  omega

end PubPer

namespace AirspeedSenorThread

/-- One call of `chThdSleepUntil`. -/
structure Sleep where
  pubPer : PubPer
  /-- the pass it ends, counted from 1 -/
  number : Nat
  slpUntil : Systime
  /-- ticks since start-up at the call -/
  called : Nat
  /-- the ticks slept, none for ever -/
  slept : Option Nat

structure State where
  /-- ticks since start-up -/
  now : Nat
  slpUntil : Systime
  /-- the thread is in a sleep without end -/
  asleep : Bool := false
  sleeps : List Sleep := []

/-- What a pass of the loop is told: the parameter's value, and how long the
body takes. -/
structure Pass where
  pubPer : PubPer
  body : Nat

namespace State

/-- Before the loop: `slp_until = chVTGetSystemTime()`. -/
def enter (now : Nat) : State := { now, slpUntil := chVTGetSystemTime now }

/-- The call at the end of a pass. -/
def sleep (s : State) (a : Pass) : Sleep :=
  let slpUntil := s.slpUntil + us2st a.pubPer.usec
  let called := s.now + a.body
  { pubPer := a.pubPer
    number := s.sleeps.length + 1
    slpUntil
    called
    slept := chThdSleepUntil called slpUntil }

/-- A pass of the loop. -/
def pass (s : State) (a : Pass) : State :=
  let x := s.sleep a
  { now := x.called + x.slept.getD 0
    slpUntil := x.slpUntil
    asleep := x.slept.isNone
    sleeps := x :: s.sleeps }

end State

/-- The loop from its entry on. -/
def machine : Machine State Pass where
  init s := ∃ now, s = .enter now
  step s a s' := s.asleep = false ∧ s' = s.pass a

/-! ## One pass -/

namespace State

/-- How far the wake-up time lies back, as the 16-bit time tells. -/
def late (s : State) : Nat := (chVTGetSystemTime s.now - s.slpUntil).toNat

@[simp] theorem late_enter (now : Nat) : (enter now).late = 0 := by
  simp [late, enter]

/-- The ticks left at the end of the body, if it ends in time. -/
theorem left_of_le {s : State} {a : Pass}
    (h : s.late + a.body ≤ (us2st a.pubPer.usec).toNat) :
    ((s.sleep a).slpUntil - chVTGetSystemTime (s.sleep a).called).toNat =
      (us2st a.pubPer.usec).toNat - (s.late + a.body) := by
  have hu := (us2st a.pubPer.usec).toNat_lt
  have hs := s.slpUntil.toNat_lt
  simp only [late, sleep, UInt16.toNat_sub, UInt16.toNat_add, chVTGetSystemTime_toNat] at h ⊢
  omega

/-- A body that ends too late leaves the rest of a whole turn of the 16-bit
time. -/
theorem left_of_lt {s : State} {a : Pass}
    (h : (us2st a.pubPer.usec).toNat < s.late + a.body) (hb : s.late + a.body < 2 ^ 16) :
    ((s.sleep a).slpUntil - chVTGetSystemTime (s.sleep a).called).toNat =
      2 ^ 16 - (s.late + a.body - (us2st a.pubPer.usec).toNat) := by
  have hu := (us2st a.pubPer.usec).toNat_lt
  have hs := s.slpUntil.toNat_lt
  simp only [late, sleep, UInt16.toNat_sub, UInt16.toNat_add, chVTGetSystemTime_toNat] at h hb ⊢
  omega

/-- Whatever was left, the thread wakes up at the wake-up time, or a tick
later where the kernel makes two ticks of one. -/
theorem late_pass {s : State} {a : Pass} (h : (s.pass a).asleep = false) :
    (s.pass a).late ≤ 1 := by
  obtain ⟨r, hr⟩ : ∃ r, ((s.sleep a).slpUntil - chVTGetSystemTime (s.sleep a).called).toNat = r :=
    ⟨_, rfl⟩
  have hslept : (s.sleep a).slept = _ := chThdSleepUntil_eq hr
  have hlate : (s.pass a).late =
      (chVTGetSystemTime ((s.sleep a).called + (s.sleep a).slept.getD 0) -
        (s.sleep a).slpUntil).toNat := rfl
  have hasleep : (s.sleep a).slept.isNone = false := h
  have hlt := (s.sleep a).slpUntil.toNat_lt
  rw [UInt16.toNat_sub, chVTGetSystemTime_toNat] at hr
  rw [hlate, UInt16.toNat_sub, chVTGetSystemTime_toNat]
  rw [hslept] at hasleep ⊢
  rcases Nat.eq_zero_or_pos r with h0 | hpos
  · rw [if_pos h0, Option.getD_some]
    omega
  · rw [if_neg (Nat.ne_of_gt hpos)] at hasleep ⊢
    by_cases hinf : r = 65535
    · rw [if_pos hinf] at hasleep
      cases hasleep
    · rw [if_neg hinf, Option.getD_some]
      omega

end State

/-! ## At most a period -/

/-- The sleep lasts at most one publication period. -/
def Sleep.AtMostPeriod (x : Sleep) : Prop := ∃ n, x.slept = some n ∧ n ≤ x.pubPer.ticks

/-- The body ends no later than the wake-up time: what the last sleep and the
body have used up is at most what the macro makes of the period. -/
def InTime (s : State) (a : Pass) (_ : State) : Prop :=
  s.late + a.body ≤ (us2st a.pubPer.usec).toNat

/-- A sleep after a body that ends in time is short, one after any other is
the rest of a turn of the 16-bit time. -/
theorem sleep_atMostPeriod_iff {s : State} {a : Pass} (hs : s.late ≤ 1) (hb : a.body < 2 ^ 15) :
    (s.sleep a).AtMostPeriod ↔ s.late + a.body ≤ (us2st a.pubPer.usec).toNat := by
  have hu := a.pubPer.us2st_le
  have hp := a.pubPer.ticks_le
  have hmin := a.pubPer.le_ticks
  by_cases h : s.late + a.body ≤ (us2st a.pubPer.usec).toNat
  · refine ⟨fun _ => h, fun _ => ?_⟩
    have hslept : (s.sleep a).slept = _ := chThdSleepUntil_eq (State.left_of_le h)
    by_cases h0 : (us2st a.pubPer.usec).toNat - (s.late + a.body) = 0
    · exact ⟨0, by rw [hslept, if_pos h0], Nat.zero_le _⟩
    · refine ⟨_, by rw [hslept, if_neg h0, if_neg (by omega)], ?_⟩
      show max 2 _ ≤ a.pubPer.ticks
      omega
  · refine ⟨?_, fun hle => absurd hle h⟩
    rintro ⟨n, hn, hle⟩
    have hleft := State.left_of_lt (Nat.lt_of_not_le h) (by omega)
    have hslept : (s.sleep a).slept = _ := chThdSleepUntil_eq hleft
    have hle' : n ≤ a.pubPer.ticks := hle
    rw [hslept, if_neg (by omega)] at hn
    by_cases hinf : 2 ^ 16 - (s.late + a.body - (us2st a.pubPer.usec).toNat) = 65535
    · rw [if_pos hinf] at hn
      cases hn
    · rw [if_neg hinf] at hn
      cases hn
      omega

/-- Along a run, all sleeps are at most a period iff every body ends in
time. -/
theorem run_atMostPeriod_iff {s s' : State} {as : List Pass}
    (hs : s.asleep = false → s.late ≤ 1) (h : machine.Run s as s')
    (hb : ∀ a ∈ as, a.body < 2 ^ 15) :
    (∀ x ∈ s'.sleeps, x.AtMostPeriod) ↔
      (∀ x ∈ s.sleeps, x.AtMostPeriod) ∧ (machine.restrict InTime).Run s as s' := by
  induction h with
  | nil => exact ⟨fun hx => ⟨hx, .nil⟩, And.left⟩
  | @cons s s₁ s' a as hst _ ih =>
      obtain ⟨hawake, rfl⟩ := hst
      have hb' : ∀ a ∈ as, a.body < 2 ^ 15 := fun a ha => hb a (List.mem_cons_of_mem _ ha)
      have hsleep := sleep_atMostPeriod_iff (hs hawake) (hb a List.mem_cons_self)
      have hcons : (∀ x ∈ (s.pass a).sleeps, x.AtMostPeriod) ↔
          (s.sleep a).AtMostPeriod ∧ ∀ x ∈ s.sleeps, x.AtMostPeriod := List.forall_mem_cons
      rw [ih State.late_pass hb', hcons, hsleep]
      constructor
      · rintro ⟨⟨hin, hold⟩, hrun⟩
        exact ⟨hold, .cons ⟨⟨hawake, rfl⟩, hin⟩ hrun⟩
      · rintro ⟨hold, hrun⟩
        cases hrun with
        | cons hst' hrest =>
            obtain ⟨⟨-, rfl⟩, hin⟩ := hst'
            exact ⟨⟨hin, hold⟩, hrest⟩

/-- The thread never sleeps longer than a publication period iff no body ends
after its wake-up time. -/
theorem sleeps_atMostPeriod_iff {s s' : State} {as : List Pass} (h0 : machine.init s)
    (h : machine.Run s as s') (hb : ∀ a ∈ as, a.body < 2 ^ 15) :
    (∀ x ∈ s'.sleeps, x.AtMostPeriod) ↔ (machine.restrict InTime).Run s as s' := by
  obtain ⟨now, rfl⟩ := h0
  have hlate : (State.enter now).asleep = false → (State.enter now).late ≤ 1 := by
    intro _
    rw [State.late_enter]
    exact Nat.zero_le 1
  rw [run_atMostPeriod_iff hlate h hb]
  exact and_iff_right (List.forall_mem_nil _)

/-- The default value of the parameter. -/
def everyTwentyMs : PubPer := { usec := 20000 }

/-- A body of 30 ms with a period of 20 ms. -/
def overrun : Pass := { pubPer := everyTwentyMs, body := 300 }

theorem run_overrun : machine.Run (.enter 0) [overrun] ((State.enter 0).pass overrun) :=
  .cons ⟨rfl, rfl⟩ .nil

theorem sleeps_atMostPeriod_witness :
    (∀ x ∈ ((State.enter 0).pass overrun).sleeps, x.AtMostPeriod) ↔
      (machine.restrict InTime).Run (.enter 0) [overrun] ((State.enter 0).pass overrun) :=
  sleeps_atMostPeriod_iff ⟨0, rfl⟩ run_overrun (by decide)

/-- The body ends 10 ms late, and the thread sleeps for 6.5 s. -/
theorem sleeps_longer_than_period :
    machine.init (.enter 0) ∧
      machine.Run (.enter 0) [overrun] ((State.enter 0).pass overrun) ∧
      overrun.body < 2 ^ 15 ∧
      (((State.enter 0).pass overrun).sleeps.map fun x => x.slept) = [some 65436] ∧
      ¬∀ x ∈ ((State.enter 0).pass overrun).sleeps, x.AtMostPeriod := by
  refine ⟨⟨0, rfl⟩, run_overrun, by decide, by decide, fun h => ?_⟩
  obtain ⟨n, hn, hle⟩ := h ((State.enter 0).sleep overrun) List.mem_cons_self
  have hslept : ((State.enter 0).sleep overrun).slept = some 65436 := by decide
  have hticks : ((State.enter 0).sleep overrun).pubPer.ticks = 200 := by decide
  rw [hslept] at hn
  cases hn
  omega

/-! ## On schedule -/

/-- The body of every pass ends before the time scheduled for its wake-up,
the parameter being `p` all along. -/
def Ahead (p : PubPer) (start : Nat) (s : State) (a : Pass) (_ : State) : Prop :=
  a.pubPer = p ∧ s.now + a.body < start + (s.sleeps.length + 1) * p.ticks

/-- The wake-up time of the `n`-th pass is `n` periods after the start, and the
thread sleeps for what remains until then. -/
def Sleep.OnSchedule (p : PubPer) (start : Nat) (x : Sleep) : Prop :=
  x.slpUntil = chVTGetSystemTime (start + x.number * p.ticks) ∧
    x.slept = some (start + x.number * p.ticks - x.called)

/-- One tick is left at the call, less than the kernel sleeps. -/
def Sleep.OneTickLeft (p : PubPer) (start : Nat) (x : Sleep) : Prop :=
  x.called + 1 = start + x.number * p.ticks

/-- Between two passes, the wake-up time is the last one scheduled, and it has
passed. -/
structure Kept (p : PubPer) (start : Nat) (s : State) : Prop where
  slpUntil : s.slpUntil = chVTGetSystemTime (start + s.sleeps.length * p.ticks)
  le_now : start + s.sleeps.length * p.ticks ≤ s.now

/-- Where the macro is exact, a pass keeps the schedule and sleeps for what
remains, unless this is a single tick. -/
theorem Kept.pass {p : PubPer} {start : Nat} {s : State} {a : Pass} (hs : Kept p start s)
    (hp : (us2st p.usec).toNat = p.ticks) (ha : Ahead p start s a (s.pass a)) :
    Kept p start (s.pass a) ∧
      ((s.sleep a).OnSchedule p start ↔ ¬(s.sleep a).OneTickLeft p start) := by
  obtain ⟨rfl, hahead⟩ := ha
  have hticks := a.pubPer.ticks_le
  have hnext : (s.sleeps.length + 1) * a.pubPer.ticks =
      s.sleeps.length * a.pubPer.ticks + a.pubPer.ticks := Nat.succ_mul _ _
  have hle := hs.le_now
  have hslp : (s.sleep a).slpUntil =
      chVTGetSystemTime (start + (s.sleeps.length + 1) * a.pubPer.ticks) := by
    apply UInt16.toNat_inj.mp
    show (s.slpUntil + us2st a.pubPer.usec).toNat = _
    rw [UInt16.toNat_add, hs.slpUntil, chVTGetSystemTime_toNat, chVTGetSystemTime_toNat, hp]
    omega
  obtain ⟨r, hr⟩ : ∃ r, start + (s.sleeps.length + 1) * a.pubPer.ticks = s.now + a.body + r :=
    ⟨_, (Nat.add_sub_of_le (Nat.le_of_lt hahead)).symm⟩
  have hleft : ((s.sleep a).slpUntil - chVTGetSystemTime (s.sleep a).called).toNat = r := by
    show ((s.sleep a).slpUntil - chVTGetSystemTime (s.now + a.body)).toNat = r
    rw [hslp, elapsed_toNat (Nat.le_of_lt hahead)]
    omega
  have hslept : (s.sleep a).slept = some (max 2 r) := by
    have h : (s.sleep a).slept = _ := chThdSleepUntil_eq hleft
    rw [h, if_neg (by omega), if_neg (by omega)]
  refine ⟨⟨hslp, ?_⟩, ?_⟩
  · show start + (s.sleeps.length + 1) * a.pubPer.ticks ≤
      s.now + a.body + (s.sleep a).slept.getD 0
    rw [hslept, Option.getD_some]
    omega
  · have hone : (s.sleep a).OneTickLeft a.pubPer start ↔ r = 1 := by
      show s.now + a.body + 1 = start + (s.sleeps.length + 1) * a.pubPer.ticks ↔ r = 1
      omega
    have hon : (s.sleep a).OnSchedule a.pubPer start ↔ max 2 r = r := by
      have hrest : start + (s.sleep a).number * a.pubPer.ticks - (s.sleep a).called = r := by
        show start + (s.sleeps.length + 1) * a.pubPer.ticks - (s.now + a.body) = r
        omega
      rw [Sleep.OnSchedule, hrest, hslept, Option.some_inj]
      exact and_iff_right hslp
    rw [hone, hon]
    omega

/-- Along a run ahead of the schedule, the macro being exact, every sleep is on
schedule unless a single tick was left. -/
theorem run_onSchedule {p : PubPer} {start : Nat} {s s' : State} {as : List Pass}
    (hp : (us2st p.usec).toNat = p.ticks) (hs : Kept p start s)
    (h : (machine.restrict (Ahead p start)).Run s as s')
    (hx : ∀ x ∈ s.sleeps, x.OnSchedule p start ↔ ¬x.OneTickLeft p start) :
    ∀ x ∈ s'.sleeps, x.OnSchedule p start ↔ ¬x.OneTickLeft p start := by
  induction h with
  | nil => exact hx
  | cons hst _ ih =>
      obtain ⟨⟨-, rfl⟩, ha⟩ := hst
      obtain ⟨hkept, hnew⟩ := hs.pass hp ha
      exact ih hkept (List.forall_mem_cons.mpr ⟨hnew, hx⟩)

theorem run_sleeps_subset {M : State → Pass → State → Prop} {s s' : State} {as : List Pass}
    (h : (machine.restrict M).Run s as s') : s.sleeps ⊆ s'.sleeps := by
  induction h with
  | nil => exact List.Subset.refl _
  | cons hst _ ih =>
      obtain ⟨⟨-, rfl⟩, -⟩ := hst
      exact List.Subset.trans (List.subset_cons_self _ _) ih

/-- Where the macro is not exact, the first wake-up time is wrong already. -/
theorem not_onSchedule_first {p : PubPer} {now : Nat} {a : Pass} (ha : a.pubPer = p)
    (hp : (us2st p.usec).toNat ≠ p.ticks) : ¬((State.enter now).sleep a).OnSchedule p now := by
  subst ha
  rintro ⟨hslp, -⟩
  have hslp' : chVTGetSystemTime now + us2st a.pubPer.usec =
      chVTGetSystemTime (now + (0 + 1) * a.pubPer.ticks) := hslp
  have hle := a.pubPer.us2st_le
  have hticks := a.pubPer.ticks_le
  have hnat := congrArg UInt16.toNat hslp'
  rw [UInt16.toNat_add, chVTGetSystemTime_toNat, chVTGetSystemTime_toNat] at hnat
  omega

/-- In a run that is ahead of its schedule, every wake-up time and every sleep
is as scheduled iff the period does not overflow the conversion and no pass
leaves a single tick to sleep. -/
theorem onSchedule_iff {p : PubPer} {s s' : State} {as : List Pass} (h0 : machine.init s)
    (h : (machine.restrict (Ahead p s.now)).Run s as s') (hne : as ≠ []) :
    (∀ x ∈ s'.sleeps, x.OnSchedule p s.now) ↔
      p.usec.toNat ≤ 429396 ∧ ∀ x ∈ s'.sleeps, ¬x.OneTickLeft p s.now := by
  obtain ⟨now, rfl⟩ := h0
  have hexact : (us2st p.usec).toNat = p.ticks ↔ p.usec.toNat ≤ 429396 := us2st_eq_iff p.le_max
  rw [← hexact]
  by_cases hp : (us2st p.usec).toNat = p.ticks
  · have hstart : Kept p now (State.enter now) := by
      refine ⟨?_, ?_⟩
      · show chVTGetSystemTime now = chVTGetSystemTime (now + 0 * p.ticks)
        rw [Nat.zero_mul, Nat.add_zero]
      · show now + 0 * p.ticks ≤ now
        omega
    have hrun := run_onSchedule hp hstart h (List.forall_mem_nil _)
    rw [and_iff_right hp]
    exact forall₂_congr hrun
  · refine ⟨fun hon => ?_, fun ⟨hp', _⟩ => absurd hp' hp⟩
    cases h with
    | nil => exact absurd rfl hne
    | cons hst hrest =>
        obtain ⟨⟨-, rfl⟩, ha, -⟩ := hst
        have hmem := run_sleeps_subset hrest List.mem_cons_self
        exact absurd (hon _ hmem) (not_onSchedule_first ha hp)

/-- The longest period the parameter admits. -/
def everySecond : PubPer := { usec := 1000000 }

/-- A body of 10 ms. -/
def brief : Pass := { pubPer := everySecond, body := 100 }

theorem everySecond_overflows : (us2st everySecond.usec).toNat ≠ everySecond.ticks := by decide

theorem run_brief : (machine.restrict (Ahead everySecond 0)).Run (.enter 0) [brief]
    ((State.enter 0).pass brief) :=
  .cons ⟨⟨rfl, rfl⟩, rfl, by decide⟩ .nil

theorem onSchedule_witness :
    (∀ x ∈ ((State.enter 0).pass brief).sleeps, x.OnSchedule everySecond 0) ↔
      everySecond.usec.toNat ≤ 429396 ∧
        ∀ x ∈ ((State.enter 0).pass brief).sleeps, ¬x.OneTickLeft everySecond 0 :=
  onSchedule_iff (s := .enter 0) ⟨0, rfl⟩ run_brief (List.cons_ne_nil _ _)

/-- With a period of a second the first wake-up time is 141.1 ms after the
start. -/
theorem not_onSchedule_everySecond :
    machine.init (.enter 0) ∧
      (machine.restrict (Ahead everySecond 0)).Run (.enter 0) [brief]
        ((State.enter 0).pass brief) ∧
      (((State.enter 0).pass brief).sleeps.map fun x => x.slpUntil) = [1411] ∧
      ¬∀ x ∈ ((State.enter 0).pass brief).sleeps, x.OnSchedule everySecond 0 := by
  refine ⟨⟨0, rfl⟩, run_brief, by decide, fun h => ?_⟩
  have hfirst : ¬((State.enter 0).sleep brief).OnSchedule everySecond 0 :=
    not_onSchedule_first rfl everySecond_overflows
  exact hfirst (h _ List.mem_cons_self)

end AirspeedSenorThread

end UavcanAdapter
