/-
# `Sensor.Driver4525D` — the airspeed sensor driver

`class driver_4525D`.  The outcome of an I2C transfer, the bytes it brings
and the time it takes are given from outside, and so is the time between
two calls.  Real time is counted in ticks of 100 us since the start; the
system time the driver sees is this count in 16 bits.

`log` is the history of what `_get_data` received, newest first; no code
reads it.  `fresh_iff` compares what `get_pressure` and `get_temperature`
return with this history.
-/
import UavcanAdapter.Base.Machine
import UavcanAdapter.Os.SystemTime

namespace UavcanAdapter

open Base

/-- A transfer on the bus: the ticks it takes, and what is in the buffer
when the result is `MSG_OK`. -/
structure Transfer (n : Nat) where
  ticks : Nat
  data : Option (Vector UInt8 n)

namespace Driver4525D

/-- The variables of the driver. -/
structure Driver where
  initialized : Bool := false
  healthy : Bool := false
  /-- `_driver` is not null -/
  driver : Bool := true
  address : UInt8 := 0
  lastSampleTime : Systime := 0
  measurementStarted : Systime := 0
  psiRange : Float32 := 1.0
  lastPressurePa : Float32 := 0.0
  lastTemperature : Float32 := 0.0

/-- Four bytes from the sensor, when they came, and the range in force. -/
structure Reading where
  time : Nat
  data : Vector UInt8 4
  psiRange : Float32

structure State where
  driver : Driver
  /-- ticks since the start -/
  now : Nat
  log : List Reading

/-! ## Raw data -/

def status (data : Vector UInt8 4) : UInt8 := (data[0] &&& 0xC0) >>> 6

/-- `dp`: two bytes in an `int16_t`, of which 14 bits count. -/
def rawPressure (data : Vector UInt8 4) : Int16 :=
  Int16.ofInt (data[0].toNat * 256 + data[1].toNat) &&& 0x3FFF

/-- `temp`: the upper 11 bits of two bytes.  The mask makes the `int` it is
applied to non-negative. -/
def rawTemperature (data : Vector UInt8 4) : Int16 :=
  (((Int16.ofInt (data[2].toNat * 256 + data[3].toNat)).toUInt16 &&& 0xFFE0) >>> 5).toInt16

/-- `_get_pressure`. -/
def pressureOf (psiRange : Float32) (raw : Int16) : Float32 :=
  let pMax := psiRange
  let pMin := -pMax
  let psiToPa : Float32 := 6894.757
  let pressPsi := -((Float32.ofInt raw.toInt - 0.1 * 16383) * (pMax - pMin) / (0.8 * 16383) + pMin)
  pressPsi * psiToPa

/-- `_get_temperature`. -/
def temperatureOf (raw : Int16) : Float32 := 200.0 * Float32.ofInt raw.toInt / 2047 - 50

/-! ## The calls -/

namespace State

/-- `_start_measurement`. -/
def startMeasurement (s : State) (t : Transfer 2) : State :=
  let now := s.now + t.ticks
  match t.data with
  | some _ =>
      { s with now, driver := { s.driver with
          measurementStarted := chVTGetSystemTime now, healthy := true } }
  | none => { s with now, driver := { s.driver with measurementStarted := 0, healthy := false } }

/-- `_get_data`. -/
def getData (s : State) (t : Transfer 4) : State :=
  let now := s.now + t.ticks
  match t.data with
  | none => { s with now, driver := { s.driver with measurementStarted := 0, healthy := false } }
  | some data =>
      let log := { time := now, data, psiRange := s.driver.psiRange } :: s.log
      let dp := rawPressure data
      let temp := rawTemperature data
      if status data = 2 ∨ status data = 3 then
        { now, log, driver := { s.driver with measurementStarted := 0, healthy := false } }
      else if dp = 0 ∨ dp = 0x3FFF ∨ temp = 0 ∨ temp = 0x7FF then
        { now, log, driver := { s.driver with measurementStarted := 0, healthy := false } }
      else
        { now, log, driver := { s.driver with
            measurementStarted := 0
            healthy := true
            lastPressurePa := pressureOf s.driver.psiRange dp
            lastTemperature := temperatureOf temp
            lastSampleTime := chVTGetSystemTime now } }

/-- The loop of `init`, with the addresses to go. -/
def initLoop : List (UInt8 × Transfer 2) → State → State × Bool
  | [], s => ({ s with driver := { s.driver with address := 0 } }, false)
  | (address, t) :: rest, s =>
      let s := startMeasurement { s with driver := { s.driver with address } } t
      if s.driver.measurementStarted ≠ 0 then
        ({ s with driver := { s.driver with initialized := true } }, true)
      else initLoop rest s

def init (s : State) (t₁ t₂ t₃ : Transfer 2) : State × Bool :=
  if s.driver.driver = false then (s, false)
  else if s.driver.initialized = true ∧ s.driver.address ≠ 0 then (s, true)
  else initLoop [(0x28, t₁), (0x36, t₂), (0x46, t₃)] s

def poll (s : State) (data : Transfer 4) (start : Transfer 2) : State :=
  if s.driver.measurementStarted = 0 then s.startMeasurement start
  else if chVTGetSystemTime s.now - s.driver.measurementStarted > ms2st 5 then
    (s.getData data).startMeasurement start
  else s

def getTemperature (s : State) : Option Float32 :=
  if chVTGetSystemTime s.now - s.driver.lastSampleTime > ms2st 50 then none
  else some s.driver.lastTemperature

def getPressure (s : State) : Option Float32 :=
  if chVTGetSystemTime s.now - s.driver.lastSampleTime > ms2st 100 then none
  else some s.driver.lastPressurePa

def setPsiRange (s : State) (psiRange : Float32) : State :=
  { s with driver := { s.driver with psiRange } }

end State

/-- What happens to the driver.  The two readers change nothing. -/
inductive Event
  | init (t₁ t₂ t₃ : Transfer 2)
  | poll (data : Transfer 4) (start : Transfer 2)
  | setPsiRange (psiRange : Float32)
  /-- time between two calls -/
  | wait (ticks : Nat)

def State.next (s : State) : Event → State
  | .init t₁ t₂ t₃ => (s.init t₁ t₂ t₃).1
  | .poll data start => s.poll data start
  | .setPsiRange psiRange => s.setPsiRange psiRange
  | .wait ticks => { s with now := s.now + ticks }

/-- A driver as it is constructed, at any time. -/
def machine : Machine State Event where
  init s := (∃ driver, s.driver = { driver }) ∧ s.log = []
  step s a s' := s' = s.next a

/-! ## The driver and the history -/

/-- A measurement with good status and raw values in range. -/
def Reading.Good (x : Reading) : Prop :=
  ¬(status x.data = 2 ∨ status x.data = 3) ∧
    ¬(rawPressure x.data = 0 ∨ rawPressure x.data = 0x3FFF ∨
      rawTemperature x.data = 0 ∨ rawTemperature x.data = 0x7FF)

instance (x : Reading) : Decidable x.Good := inferInstanceAs (Decidable (_ ∧ _))

def Reading.pressure (x : Reading) : Float32 := pressureOf x.psiRange (rawPressure x.data)

def Reading.temperature (x : Reading) : Float32 := temperatureOf (rawTemperature x.data)

/-- The most recent good measurement. -/
def lastGood (log : List Reading) : Option Reading := log.find? fun x => x.Good

/-- The time the driver goes by: that of the last good measurement, and the
start where there is none. -/
def sampleTime (log : List Reading) : Nat :=
  match lastGood log with
  | some x => x.time
  | none => 0

/-- What the driver holds is from the last good measurement. -/
structure Sampled (s : State) : Prop where
  time : s.driver.lastSampleTime = chVTGetSystemTime (sampleTime s.log)
  past : sampleTime s.log ≤ s.now
  values : ∀ x, lastGood s.log = some x →
    s.driver.lastPressurePa = x.pressure ∧ s.driver.lastTemperature = x.temperature

/-- A step that takes no measurement. -/
structure Keeps (s s' : State) : Prop where
  log : s'.log = s.log
  now : s.now ≤ s'.now
  time : s'.driver.lastSampleTime = s.driver.lastSampleTime
  values : s'.driver.lastPressurePa = s.driver.lastPressurePa ∧
    s'.driver.lastTemperature = s.driver.lastTemperature

section Steps

variable {s s' s'' : State}

theorem Keeps.refl (s : State) : Keeps s s where
  log := rfl
  now := le_rfl
  time := rfl
  values := ⟨rfl, rfl⟩

theorem Keeps.trans (h : Keeps s s') (h' : Keeps s' s'') : Keeps s s'' where
  log := h'.log.trans h.log
  now := h.now.trans h'.now
  time := h'.time.trans h.time
  values := ⟨h'.values.1.trans h.values.1, h'.values.2.trans h.values.2⟩

theorem Sampled.keeps (h : Sampled s) (hk : Keeps s s') : Sampled s' where
  time := by rw [hk.time, hk.log, h.time]
  past := by
    rw [hk.log]
    exact h.past.trans hk.now
  values := by
    intro x hx
    rw [hk.log] at hx
    rw [hk.values.1, hk.values.2]
    exact h.values x hx

theorem startMeasurement_keeps (s : State) (t : Transfer 2) : Keeps s (s.startMeasurement t) := by
  rw [State.startMeasurement]
  split
  · exact ⟨rfl, Nat.le_add_right _ _, rfl, rfl, rfl⟩
  · exact ⟨rfl, Nat.le_add_right _ _, rfl, rfl, rfl⟩

theorem initLoop_keeps : ∀ (addresses : List (UInt8 × Transfer 2)) (s : State),
    Keeps s (State.initLoop addresses s).1
  | [], _ => ⟨rfl, le_rfl, rfl, rfl, rfl⟩
  | (address, t) :: rest, s => by
      have haddress : Keeps s { s with driver := { s.driver with address } } :=
        ⟨rfl, le_rfl, rfl, rfl, rfl⟩
      have hstart := haddress.trans (startMeasurement_keeps _ t)
      rw [State.initLoop]
      split
      · exact hstart.trans ⟨rfl, le_rfl, rfl, rfl, rfl⟩
      · exact hstart.trans (initLoop_keeps rest _)

theorem init_keeps (s : State) (t₁ t₂ t₃ : Transfer 2) : Keeps s (s.init t₁ t₂ t₃).1 := by
  rw [State.init]
  split
  · exact .refl s
  split
  · exact .refl s
  · exact initLoop_keeps _ s

/-- A bad measurement changes nothing but the history. -/
theorem Sampled.cons_of_not_good (h : Sampled s) {x : Reading} (hx : ¬x.Good) :
    Sampled { s with log := x :: s.log } := by
  have hlast : lastGood (x :: s.log) = lastGood s.log :=
    List.find?_cons_of_neg (by simpa using hx)
  have htime : sampleTime (x :: s.log) = sampleTime s.log := by rw [sampleTime, hlast, sampleTime]
  refine ⟨?_, ?_, ?_⟩
  · rw [htime]
    exact h.time
  · rw [htime]
    exact h.past
  · rw [hlast]
    exact h.values

/-- `_get_data` takes over a good measurement, and nothing else. -/
theorem getData_sampled (h : Sampled s) (t : Transfer 4) : Sampled (s.getData t) := by
  rw [State.getData]
  split
  · exact h.keeps ⟨rfl, Nat.le_add_right _ _, rfl, rfl, rfl⟩
  rename_i data _
  set x : Reading := { time := s.now + t.ticks, data, psiRange := s.driver.psiRange } with hx
  dsimp only
  split
  · rename_i hstatus
    have hbad : ¬x.Good := fun hgood => hgood.1 hstatus
    exact (h.cons_of_not_good hbad).keeps ⟨rfl, Nat.le_add_right _ _, rfl, rfl, rfl⟩
  split
  · rename_i hrange
    have hbad : ¬x.Good := fun hgood => hgood.2 hrange
    exact (h.cons_of_not_good hbad).keeps ⟨rfl, Nat.le_add_right _ _, rfl, rfl, rfl⟩
  · rename_i hstatus hrange
    have hgood : x.Good := ⟨hstatus, hrange⟩
    have hlast : lastGood (x :: s.log) = some x := List.find?_cons_of_pos (decide_eq_true hgood)
    have htime : sampleTime (x :: s.log) = s.now + t.ticks := by rw [sampleTime, hlast]
    refine ⟨?_, ?_, ?_⟩
    · rw [htime]
    · rw [htime]
    · intro y hy
      obtain rfl := Option.some.inj (hlast.symm.trans hy)
      exact ⟨rfl, rfl⟩

theorem poll_sampled (h : Sampled s) (data : Transfer 4) (start : Transfer 2) :
    Sampled (s.poll data start) := by
  rw [State.poll]
  split
  · exact h.keeps (startMeasurement_keeps s start)
  split
  · exact (getData_sampled h data).keeps (startMeasurement_keeps _ start)
  · exact h

theorem next_sampled (h : Sampled s) (a : Event) : Sampled (s.next a) := by
  cases a with
  | init t₁ t₂ t₃ => exact h.keeps (init_keeps s t₁ t₂ t₃)
  | poll data start => exact poll_sampled h data start
  | setPsiRange r => exact h.keeps ⟨rfl, le_rfl, rfl, rfl, rfl⟩
  | wait ticks => exact h.keeps ⟨rfl, Nat.le_add_right _ _, rfl, rfl, rfl⟩

theorem reachable_sampled (h : machine.Reachable s) : Sampled s := by
  refine Machine.Reachable.invariant ?_ ?_ h
  · rintro s ⟨⟨driver, hd⟩, hlog⟩
    refine ⟨?_, ?_, ?_⟩
    · rw [hd, hlog]
      rfl
    · rw [hlog]
      exact Nat.zero_le _
    · rw [hlog]
      intro x hx
      cases hx
  · rintro s a s' _ h rfl
    exact next_sampled h a

end Steps

/-! ## Freshness -/

section Freshness

variable {s : State}

/-- What `get_pressure` returns was measured at most 100 ms ago, and it is
the last good measurement. -/
def PressureFresh (s : State) : Prop :=
  ∀ press, s.getPressure = some press →
    ∃ x, lastGood s.log = some x ∧ s.now ≤ x.time + 1000 ∧ press = x.pressure

/-- The same for `get_temperature` and 50 ms. -/
def TemperatureFresh (s : State) : Prop :=
  ∀ temp, s.getTemperature = some temp →
    ∃ x, lastGood s.log = some x ∧ s.now ≤ x.time + 500 ∧ temp = x.temperature

/-- The last good measurement is at most `limit` ticks old, or the system
time has moved on by more than that since, or since the start where there
is none. -/
def Settled (limit : Nat) (s : State) : Prop :=
  (∃ x, lastGood s.log = some x ∧ s.now ≤ x.time + limit) ∨
    limit < (s.now - sampleTime s.log) % 2 ^ 16

/-- A reader that compares the system time with a limit and returns what it
took from the last good measurement. -/
theorem fresh_iff_settled {limit : Nat} {ms : UInt32} {value : Float32} {f : Reading → Float32}
    (hs : Sampled s) (hlimit : (ms2st ms).toNat = limit)
    (hvalue : ∀ x, lastGood s.log = some x → value = f x) :
    (∀ v, (if chVTGetSystemTime s.now - s.driver.lastSampleTime > ms2st ms then none
        else some value) = some v →
      ∃ x, lastGood s.log = some x ∧ s.now ≤ x.time + limit ∧ v = f x) ↔ Settled limit s := by
  have htick : chVTGetSystemTime s.now - s.driver.lastSampleTime > ms2st ms ↔
      limit < (s.now - sampleTime s.log) % 2 ^ 16 := by
    rw [gt_iff_lt, UInt16.lt_iff_toNat_lt, hlimit, hs.time, elapsed_toNat hs.past]
  constructor
  · intro h
    by_cases hlate : limit < (s.now - sampleTime s.log) % 2 ^ 16
    · exact Or.inr hlate
    · rw [if_neg (fun hgt => hlate (htick.mp hgt))] at h
      obtain ⟨x, hx, hle, -⟩ := h value rfl
      exact Or.inl ⟨x, hx, hle⟩
  · rintro (⟨x, hx, hle⟩ | hlate) v hv
    · split at hv
      · cases hv
      · cases hv
        exact ⟨x, hx, hle, hvalue x hx⟩
    · rw [if_pos (htick.mpr hlate)] at hv
      cases hv

/-- In every reachable state a call of `get_pressure` or `get_temperature`
keeps its promise iff the measurements have settled. -/
theorem fresh_iff (h : machine.Reachable s) :
    (PressureFresh s ↔ Settled 1000 s) ∧ (TemperatureFresh s ↔ Settled 500 s) := by
  have hs := reachable_sampled h
  constructor
  · exact fresh_iff_settled hs (by decide) fun x hx => (hs.values x hx).1
  · exact fresh_iff_settled hs (by decide) fun x hx => (hs.values x hx).2

theorem reachable_foldl : ∀ (as : List Event) {s : State}, machine.Reachable s →
    machine.Reachable (as.foldl State.next s)
  | [], _, h => h
  | a :: as, _, h => reachable_foldl as (h.step (a := a) rfl)

/-- The start of the system. -/
def powerOn : State where
  driver := {}
  now := 0
  log := []

theorem reachable_powerOn : machine.Reachable powerOn := .init ⟨⟨true, rfl⟩, rfl⟩

/-- The sensor answers at its first address after half a millisecond. -/
def found : Event := .init { ticks := 5, data := some #v[0, 0] } { ticks := 0, data := none }
  { ticks := 0, data := none }

/-- A measurement 6 ms later. -/
def measured : List Event :=
  [found, .wait 60, .poll { ticks := 3, data := some #v[0x20, 0, 0x60, 0] }
    { ticks := 2, data := some #v[0, 0] }]

/-- Right after the measurement both readers return it. -/
theorem fresh_iff_measured :
    (measured.foldl State.next powerOn).getPressure = some (pressureOf 1.0 0x2000) ∧
    PressureFresh (measured.foldl State.next powerOn) ∧
    TemperatureFresh (measured.foldl State.next powerOn) := by
  have h := reachable_foldl measured reachable_powerOn
  have hlast : ∃ x, lastGood (measured.foldl State.next powerOn).log = some x ∧ x.time = 68 :=
    ⟨_, rfl, rfl⟩
  obtain ⟨x, hx, htime⟩ := hlast
  have hnow : (measured.foldl State.next powerOn).now = 70 := rfl
  exact ⟨by decide +kernel, (fresh_iff h).1.mpr (Or.inl ⟨x, hx, by omega⟩),
    (fresh_iff h).2.mpr (Or.inl ⟨x, hx, by omega⟩)⟩

/-- Before the first measurement, less than 100 ms after the start, a
pressure is returned that was never measured. -/
theorem not_fresh : ¬∀ s, machine.Reachable s → PressureFresh s ∧ TemperatureFresh s := by
  intro h
  have hr := reachable_foldl [found] reachable_powerOn
  have hpress : ([found].foldl State.next powerOn).getPressure = some 0.0 := by decide +kernel
  obtain ⟨x, hx, -⟩ := (h _ hr).1 _ hpress
  cases hx

end Freshness

end Driver4525D

end UavcanAdapter
