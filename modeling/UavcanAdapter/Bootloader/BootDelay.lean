/-
# `Bootloader.BootDelay` — when the boot delay timer fires

The timer is `getState` itself: a call made while the state is `bootDelay`
compares the system time that has elapsed since the application was verified
with the delay in ticks.  Both have 16 bits.  `polls` lists the answers to a
schedule of calls, each given by the ticks since the verification, and `due`
is what a timer would answer: one millisecond is ten ticks.

Up to 6553 ms the delay itself fits (`ms2st_toNat_of_le`).  A call can then
still be missed, when the elapsed time wraps between two calls; the calls
being 1000 ticks apart at most, this is excluded up to 6453 ms.
-/
import UavcanAdapter.Bootloader.Control

namespace UavcanAdapter

open Base

namespace Bootloader

variable {σ : Type}

/-- The answers of `getState`, called these numbers of ticks after
`verified`. -/
def polls (verified : Nat) : Bootloader σ → List Nat → List State
  | _, [] => []
  | bl, e :: es =>
      (bl.getState (verified + e)).2 :: polls verified (bl.getState (verified + e)).1 es

/-- The answer due `e` ticks after the verification. -/
def due (bootDelayMsec : UInt32) (e : Nat) : State :=
  if 10 * bootDelayMsec.toNat ≤ e then .readyToBoot else .bootDelay

/-- Times of calls of which the first comes after `first` ticks at the latest,
and any other at most 100 ms after the one before. -/
def Schedule (first : Nat) (es : List Nat) : Prop :=
  (∀ e ∈ es.head?, e ≤ first) ∧ es.IsChain fun e e' => e ≤ e' ∧ e' ≤ e + 1000

/-- The timer runs since `verified`. -/
structure Waiting (verified : Nat) (bl : Bootloader σ) : Prop where
  state : bl.state = .bootDelay
  bootDelayStartedAtSt : bl.bootDelayStartedAtSt = chVTGetSystemTime verified

theorem waiting_of_verify {b : IAppStorageBackend σ} {ticks : Nat} {bl bl' : Bootloader σ}
    (h : verifyAppAndUpdateState b ticks .bootDelay bl = .ok bl') (hst : bl'.state = .bootDelay) :
    Waiting ticks bl' := by
  rcases verify_cases h with ⟨desc, -, rfl⟩ | ⟨-, rfl⟩
  · exact ⟨rfl, rfl⟩
  · cases hst

theorem ms2st_toNat_of_le {msec : UInt32} (h : msec.toNat ≤ 6553) :
    (ms2st msec).toNat = 10 * msec.toNat := by
  have hfits : msec.toNat * 10000 + 999 < 2 ^ 32 := by omega
  have hdiv : (msec.toNat * 10000 + 999) / 1000 = 10 * msec.toNat := by omega
  rw [ms2st_toNat, Nat.mod_eq_of_lt hfits, hdiv]
  omega

/-! ## One call -/

section Call

variable {verified : Nat} {bl : Bootloader σ}

/-- The timer fires when the elapsed time, as far as 16 bits tell, has come up
to the delay. -/
theorem Waiting.delayExpired_iff (h : Waiting verified bl) (e : Nat) :
    bl.delayExpired (verified + e) = true ↔
      (ms2st bl.bootDelayMsec).toNat ≤ e % 2 ^ 16 := by
  have helapsed : (chVTTimeElapsedSinceX (verified + e) bl.bootDelayStartedAtSt).toNat =
      e % 2 ^ 16 := by
    rw [h.bootDelayStartedAtSt, chVTTimeElapsedSinceX, elapsed_toNat (Nat.le_add_right _ _),
      Nat.add_sub_cancel_left]
  rw [delayExpired, decide_eq_true_iff, ge_iff_le, UInt16.le_iff_toNat_le, helapsed]

theorem Waiting.getState_of_le (h : Waiting verified bl) {e : Nat}
    (he : (ms2st bl.bootDelayMsec).toNat ≤ e % 2 ^ 16) :
    bl.getState (verified + e) = ({ bl with state := .readyToBoot }, .readyToBoot) := by
  rcases getState_cases bl (verified + e) with ⟨-, -, heq⟩ | ⟨hno, -⟩
  · exact heq
  · exact absurd ⟨h.state, (h.delayExpired_iff e).mpr he⟩ hno

theorem Waiting.getState_of_lt (h : Waiting verified bl) {e : Nat}
    (he : e % 2 ^ 16 < (ms2st bl.bootDelayMsec).toNat) :
    bl.getState (verified + e) = (bl, .bootDelay) := by
  rcases getState_cases bl (verified + e) with ⟨-, hexp, -⟩ | ⟨-, heq⟩
  · have := (h.delayExpired_iff e).mp hexp
    omega
  · rw [heq, h.state]

end Call

/-! ## Schedules of calls -/

section Polls

variable {verified : Nat} {bl : Bootloader σ}

/-- Once the timer has fired, the state stays. -/
theorem polls_of_ready (h : bl.state = .readyToBoot) (es : List Nat) :
    polls verified bl es = es.map fun _ => .readyToBoot := by
  induction es with
  | nil => rfl
  | cons e es ih =>
      have hget : bl.getState (verified + e) = (bl, .readyToBoot) := by
        rcases getState_cases bl (verified + e) with ⟨hst, -, -⟩ | ⟨-, heq⟩
        · rw [h] at hst
          cases hst
        · rw [heq, h]
      rw [polls, hget, ih, List.map_cons]

/-- As long as the timer has not fired, the next call meets the controller
unchanged. -/
theorem Waiting.polls_append (h : Waiting verified bl) (e : Nat) :
    ∀ {es : List Nat}, polls verified bl es = es.map (fun _ => .bootDelay) →
      polls verified bl (es ++ [e]) =
        es.map (fun _ => .bootDelay) ++ [(bl.getState (verified + e)).2]
  | [], _ => rfl
  | e' :: es, hes => by
      by_cases hlt : e' % 2 ^ 16 < (ms2st bl.bootDelayMsec).toNat
      · rw [polls, h.getState_of_lt hlt] at hes
        rw [List.cons_append, polls, h.getState_of_lt hlt,
          h.polls_append e (List.cons_eq_cons.mp hes).2]
        rfl
      · rw [polls, h.getState_of_le (Nat.le_of_not_lt hlt)] at hes
        cases (List.cons_eq_cons.mp hes).1

/-- A timer whose delay leaves room for a gap between two calls answers as is
due, when the first call comes before the system time has wrapped. -/
theorem Waiting.polls_eq_due (h : Waiting verified bl) (hd : bl.bootDelayMsec.toNat ≤ 6453) :
    ∀ {es : List Nat}, (∀ e ∈ es.head?, e < 2 ^ 16) →
      (es.IsChain fun e e' => e ≤ e' ∧ e' ≤ e + 1000) →
      polls verified bl es = es.map (due bl.bootDelayMsec)
  | [], _, _ => rfl
  | e :: es, hfirst, hchain => by
      have hdelay : (ms2st bl.bootDelayMsec).toNat = 10 * bl.bootDelayMsec.toNat :=
        ms2st_toNat_of_le (by omega)
      have he : e % 2 ^ 16 = e := Nat.mod_eq_of_lt (hfirst e rfl)
      by_cases hdue : 10 * bl.bootDelayMsec.toNat ≤ e
      · -- fired, and every later call is due as well
        have hlater : ∀ e' ∈ es, e ≤ e' :=
          (List.pairwise_cons.mp (hchain.imp fun _ _ h => h.1).pairwise).1
        have hready : ∀ e' ∈ e :: es, due bl.bootDelayMsec e' = .readyToBoot := by
          refine List.forall_mem_cons.mpr ⟨if_pos hdue, fun e' he' => if_pos ?_⟩
          have := hlater e' he'
          omega
        rw [polls, h.getState_of_le (by omega), polls_of_ready rfl, List.map_congr_left hready,
          List.map_cons]
      · obtain ⟨hnext, hrest⟩ := List.isChain_cons.mp hchain
        have hlt : e % 2 ^ 16 < (ms2st bl.bootDelayMsec).toNat := by omega
        have hnot : due bl.bootDelayMsec e = .bootDelay := if_neg hdue
        rw [polls, h.getState_of_lt hlt, h.polls_eq_due hd _ hrest, List.map_cons, hnot]
        intro e' he'
        have := hnext e' he'
        omega

/-- Where all schedules are answered as is due, so is a call that comes after
calls before the delay. -/
theorem Waiting.fires_iff (h : Waiting verified bl) {first e : Nat} {es : List Nat}
    (hall : ∀ es, Schedule first es → polls verified bl es = es.map (due bl.bootDelayMsec))
    (hes : Schedule first es) (hlast : Schedule first (es ++ [e]))
    (hearly : ∀ e' ∈ es, e' < 10 * bl.bootDelayMsec.toNat) :
    (ms2st bl.bootDelayMsec).toNat ≤ e % 2 ^ 16 ↔ 10 * bl.bootDelayMsec.toNat ≤ e := by
  have hwait : polls verified bl es = es.map fun _ => .bootDelay := by
    rw [hall es hes]
    exact List.map_congr_left fun e' he' => if_neg (Nat.not_le_of_lt (hearly e' he'))
  have hanswer : (bl.getState (verified + e)).2 = due bl.bootDelayMsec e := by
    have happ := hall _ hlast
    rw [h.polls_append e hwait, List.map_append] at happ
    exact (List.cons_eq_cons.mp (List.append_inj_right' happ rfl)).1
  by_cases hle : (ms2st bl.bootDelayMsec).toNat ≤ e % 2 ^ 16
  · rw [h.getState_of_le hle, due] at hanswer
    by_cases hdue : 10 * bl.bootDelayMsec.toNat ≤ e
    · exact iff_of_true hle hdue
    · rw [if_neg hdue] at hanswer
      cases hanswer
  · rw [h.getState_of_lt (Nat.lt_of_not_le hle), due] at hanswer
    by_cases hdue : 10 * bl.bootDelayMsec.toNat ≤ e
    · rw [if_pos hdue] at hanswer
      cases hanswer
    · exact iff_of_false hle hdue

end Polls

/-! ## Which delays are kept -/

/-- A call at every tick. -/
theorem schedule_range (first n : Nat) : Schedule first (List.range n) := by
  refine ⟨fun e he => ?_, (List.isChain_range _ n).mpr fun m _ => ?_⟩
  · cases n with
    | zero => cases he
    | succ n =>
        rw [List.head?_range, if_neg (Nat.succ_ne_zero n)] at he
        cases he
        exact Nat.zero_le first
  · omega

/-- A call at every tick, and one more when the system time has wrapped. -/
theorem schedule_wrap (first : Nat) {n : Nat} (h0 : 0 < n) (hn : 2 ^ 16 < n + 1000)
    (hle : n ≤ 2 ^ 16) : Schedule first (List.range n ++ [2 ^ 16]) := by
  obtain ⟨hhead, hchain⟩ := schedule_range first n
  have hne : List.range n ≠ [] := by simpa using Nat.ne_of_gt h0
  refine ⟨by rwa [List.head?_append_of_ne_nil _ hne],
    hchain.append (List.isChain_singleton _) fun e he e' he' => ?_⟩
  rw [List.getLast?_range, if_neg (Nat.ne_of_gt h0)] at he
  cases he
  cases he'
  omega

section Exact

variable {b : IAppStorageBackend σ} {ticks : Nat} {bl bl' : Bootloader σ}

/-- For an application that was just found, every schedule whose first call
comes within `first` ticks is answered as is due iff there is no delay, or
one of at most 6453 ms and a first call before the system time wraps. -/
theorem polls_eq_due_iff (h : verifyAppAndUpdateState b ticks .bootDelay bl = .ok bl')
    (hst : bl'.state = .bootDelay) (first : Nat) :
    (∀ es, Schedule first es → polls ticks bl' es = es.map (due bl'.bootDelayMsec)) ↔
      bl'.bootDelayMsec.toNat = 0 ∨ (bl'.bootDelayMsec.toNat ≤ 6453 ∧ first < 2 ^ 16) := by
  have hw := waiting_of_verify h hst
  constructor
  · intro hall
    rcases Nat.eq_zero_or_pos bl'.bootDelayMsec.toNat with h0 | hpos
    · exact Or.inl h0
    -- a delay that does not fit fires when the 16 bits it is cut to are up
    have hfits : bl'.bootDelayMsec.toNat ≤ 6553 := by
      by_contra hlong
      have hm := (ms2st bl'.bootDelayMsec).toNat_lt
      have hlast := schedule_range first ((ms2st bl'.bootDelayMsec).toNat + 1)
      rw [List.range_succ] at hlast
      have hiff := hw.fires_iff hall (schedule_range first _) hlast (fun e' he' => by
        have := List.mem_range.mp he'
        omega)
      omega
    have hdelay := ms2st_toNat_of_le hfits
    -- one that fits, but with too little room, is missed
    have hroom : bl'.bootDelayMsec.toNat ≤ 6453 := by
      by_contra hlong
      have hlast := schedule_wrap first (n := 10 * bl'.bootDelayMsec.toNat) (by omega) (by omega)
        (by omega)
      have hiff := hw.fires_iff hall (schedule_range first _) hlast fun e' he' =>
        List.mem_range.mp he'
      omega
    refine Or.inr ⟨hroom, ?_⟩
    by_contra hlate
    have hlast : Schedule first ([] ++ [2 ^ 16]) :=
      ⟨fun e he => by cases he; omega, List.isChain_singleton _⟩
    have hiff := hw.fires_iff hall ⟨fun e he => (by cases he), List.isChain_nil⟩ hlast
      (List.forall_mem_nil _)
    omega
  · rintro (h0 | ⟨hroom, hfirst⟩) es ⟨hhead, hchain⟩
    · cases es with
      | nil => rfl
      | cons e es =>
          have hdelay : (ms2st bl'.bootDelayMsec).toNat = 10 * bl'.bootDelayMsec.toNat :=
            ms2st_toNat_of_le (by omega)
          have hready : ∀ e' ∈ e :: es, due bl'.bootDelayMsec e' = .readyToBoot := fun e' _ =>
            if_pos (by omega)
          rw [polls, hw.getState_of_le (by omega), polls_of_ready rfl,
            List.map_congr_left hready, List.map_cons]
    · exact hw.polls_eq_due hroom (fun e he => Nat.lt_of_le_of_lt (hhead e he) hfirst) hchain

end Exact

/-- The smallest image is found, and is to be booted after 10 s. -/
def tenSeconds : Bootloader (List UInt8) where
  state := .bootDelay
  cachedAppInfo := some (descAt minimalImage 0).appInfo
  bootDelayStartedAtSt := 0
  maxApplicationImageSize := 64
  bootDelayMsec := 10000
  storage := minimalImage

theorem construct_tenSeconds : construct ramStorage 0 minimalImage 64 10000 = .ok tenSeconds := by
  decide +kernel

theorem polls_eq_due_witness :
    (∀ es, Schedule 1000 es → polls 0 tenSeconds es = es.map (due 10000)) ↔
      (10000 : UInt32).toNat = 0 ∨ ((10000 : UInt32).toNat ≤ 6453 ∧ 1000 < 2 ^ 16) :=
  polls_eq_due_iff construct_tenSeconds rfl 1000

/-- Polled every 100 ms, it is booted after 3.5 s. -/
theorem polls_not_due :
    construct ramStorage 0 minimalImage 64 10000 = .ok tenSeconds ∧
      Schedule 1000 ((List.range 36).map (1000 * ·)) ∧
      (tenSeconds.polls 0 ((List.range 36).map (1000 * ·))).getLast? = some .readyToBoot ∧
      ¬∀ es, Schedule 1000 es → tenSeconds.polls 0 es = es.map (due 10000) := by
  have hs : Schedule 1000 ((List.range 36).map (1000 * ·)) :=
    ⟨by decide, by decide⟩
  exact ⟨construct_tenSeconds, hs, by decide +kernel,
    fun h => absurd (h _ hs) (by decide +kernel)⟩

end Bootloader

end UavcanAdapter
