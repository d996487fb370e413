/-
# `Driver.Filters` — acceptance filters in the CAN cell

A filter of the cell is a pair of registers, which it compares with the
register that holds the identifier of a frame.  For two flags in it the
comparison is not the plain one: where the mask does not ask for a flag, a
frame that has it passes only if the filter has it too.

The driver converts what the node asks for to these registers.  If the node
asks for both flags, as it always does, what passes is what the node meant
(`accepts_iff_passes`).
-/
import UavcanAdapter.Driver.Registers

namespace UavcanAdapter

open Base Base.BitSet

namespace CanardSTM32

/-- `CANARD_STM32_NUM_ACCEPTANCE_FILTERS`. -/
def numAcceptanceFilters : Nat := 14

/-- The registers of a filter. -/
structure FilterRegister where
  fr1 : UInt32
  fr2 : UInt32

/-- The registers for one filter: the body of the loop of
`canardSTM32ConfigureAcceptanceFilters`. -/
def filterRegister (cfg : AcceptanceFilterConfig) : FilterRegister :=
  let ext : Prop := cfg.id &&& canardCanFrameEff ≠ 0 ∨ ¬cfg.mask &&& canardCanFrameEff ≠ 0
  let id :=
    if ext then ((cfg.id &&& canardCanExtIdMask) <<< 3) ||| canTirIde
    else (cfg.id &&& canardCanStdIdMask) <<< 21
  let mask :=
    if ext then (cfg.mask &&& canardCanExtIdMask) <<< 3
    else (cfg.mask &&& canardCanStdIdMask) <<< 21
  let id := if cfg.id &&& canardCanFrameRtr ≠ 0 then id ||| canTirRtr else id
  let mask := if cfg.mask &&& canardCanFrameEff ≠ 0 then mask ||| canTirIde else mask
  let mask := if cfg.mask &&& canardCanFrameRtr ≠ 0 then mask ||| canTirRtr else mask
  { fr1 := id, fr2 := mask }

/-- `canardSTM32ConfigureAcceptanceFilters`: the result, and the registers of
the filters that are enabled. -/
def canardSTM32ConfigureAcceptanceFilters (filterConfigs : List AcceptanceFilterConfig) :
    Int × Option (List FilterRegister) :=
  if filterConfigs.length > numAcceptanceFilters then (-canardErrorInvalidArgument, none)
  else (0, some (filterConfigs.map filterRegister))

namespace FilterRegister

/-- How the cell compares a flag. -/
def AcceptsFlag (r : FilterRegister) (rir : UInt32) (i : Nat) : Prop :=
  if Holds r.fr2 i then (Holds rir i ↔ Holds r.fr1 i) else (Holds rir i → Holds r.fr1 i)

/-- The filter lets a frame pass with this identifier in its register. -/
structure Accepts (r : FilterRegister) (rir : UInt32) : Prop where
  field : ∀ i, 3 ≤ i → Holds r.fr2 i → (Holds rir i ↔ Holds r.fr1 i)
  ide : r.AcceptsFlag rir 2
  rtr : r.AcceptsFlag rir 1

end FilterRegister

/-- The filter asks for both flags, and its identifier is a proper one. -/
structure AsksForFlags (cfg : AcceptanceFilterConfig) : Prop where
  eff : cfg.mask &&& canardCanFrameEff ≠ 0
  rtr : cfg.mask &&& canardCanFrameRtr ≠ 0
  proper : ProperId cfg.id
  err : cfg.id &&& canardCanFrameErr = 0

section Filters

variable {cfg : AcceptanceFilterConfig} {id : UInt32} {i : Nat}

theorem holds_toRegister_flags : (Holds (convertFrameIDCanardToRegister id) 2 ↔ Holds id 31) ∧
    (Holds (convertFrameIDCanardToRegister id) 1 ↔ Holds id 30) := by
  by_cases he : Holds id 31
  · rw [holds_toRegister_ext he, holds_toRegister_ext he]
    simp [he]
  · rw [holds_toRegister_std he, holds_toRegister_std he]
    simp [he]

theorem holds_toRegister_field (he : Holds id 31) (hi : i < 29) :
    Holds (convertFrameIDCanardToRegister id) (i + 3) ↔ Holds id i := by
  rw [holds_toRegister_ext he, Nat.add_sub_cancel]
  constructor
  · rintro ((⟨-, -, h⟩ | h) | ⟨-, h⟩)
    · exact h
    · omega
    · omega
  · exact fun h => Or.inl (Or.inl ⟨by omega, by omega, h⟩)

theorem holds_toRegister_field_std (he : ¬Holds id 31) (hi : i < 11) :
    Holds (convertFrameIDCanardToRegister id) (i + 21) ↔ Holds id i := by
  rw [holds_toRegister_std he, Nat.add_sub_cancel]
  constructor
  · rintro (⟨-, -, h⟩ | ⟨-, h⟩)
    · exact h
    · omega
  · exact fun h => Or.inl ⟨by omega, by omega, h⟩

/-- A filter that asks for the flag EFF has an identifier as a frame has it. -/
theorem fr1_filterRegister (h : AsksForFlags cfg) :
    (filterRegister cfg).fr1 = convertFrameIDCanardToRegister cfg.id := by
  have heff := h.eff
  simp only [filterRegister, convertFrameIDCanardToRegister, heff, not_true_eq_false, or_false,
    ne_eq, not_false_eq_true]

theorem holds_fr2_flags (h : AsksForFlags cfg) :
    Holds (filterRegister cfg).fr2 2 ∧ Holds (filterRegister cfg).fr2 1 := by
  have hide : Holds canTirIde 2 := (holds_single (n := 2) (by decide)).mpr rfl
  have hrtr : Holds canTirRtr 1 := (holds_single (n := 1) (by decide)).mpr rfl
  simp only [filterRegister, if_pos h.eff, if_pos h.rtr, holds_or, hide, hrtr, or_true, true_or,
    and_self]

theorem holds_fr2_field (h : AsksForFlags cfg) (hi : 3 ≤ i) : Holds (filterRegister cfg).fr2 i ↔
    if Holds cfg.id 31 then i < 32 ∧ Holds cfg.mask (i - 3)
    else 21 ≤ i ∧ i < 32 ∧ Holds cfg.mask (i - 21) := by
  have hide : ¬Holds canTirIde i := fun hbit => by
    have htwo := (holds_single (n := 2) (by decide)).mp hbit
    omega
  have hrtr : ¬Holds canTirRtr i := fun hbit => by
    have hone := (holds_single (n := 1) (by decide)).mp hbit
    omega
  have heff := holds_eff.mp h.eff
  have hrtrMask := holds_rtr.mp h.rtr
  simp only [filterRegister, holds_eff, holds_rtr, heff, hrtrMask, not_true_eq_false, or_false,
    if_true, holds_or, hide, hrtr]
  by_cases he : Holds cfg.id 31
  · rw [if_pos he, if_pos he, show (3 : UInt32) = UInt32.ofNat 3 from rfl,
      holds_shiftLeft (by decide), holds_and, holds_extIdMask]
    exact ⟨fun hb => ⟨hb.2.1, hb.2.2.1⟩, fun hb => ⟨hi, hb.1, hb.2, by omega⟩⟩
  · rw [if_neg he, if_neg he, show (21 : UInt32) = UInt32.ofNat 21 from rfl,
      holds_shiftLeft (by decide), holds_and, holds_stdIdMask]
    exact ⟨fun hb => ⟨hb.1, hb.2.1, hb.2.2.1⟩, fun hb => ⟨hb.1, hb.2.1, hb.2.2, by omega⟩⟩

/-- The cell lets a frame pass a filter that asks for both flags iff the filter
as the node states it does. -/
theorem accepts_iff_passes (h : AsksForFlags cfg) (hid : ProperId id)
    (herr : id &&& canardCanFrameErr = 0) :
    (filterRegister cfg).Accepts (convertFrameIDCanardToRegister id) ↔ cfg.Passes id := by
  have herr' : ¬Holds id 29 := (and_single_eq_zero_iff (n := 29) (by decide)).mp herr
  have herrCfg : ¬Holds cfg.id 29 := (and_single_eq_zero_iff (n := 29) (by decide)).mp h.err
  have hmaskEff := holds_eff.mp h.eff
  have hmaskRtr := holds_rtr.mp h.rtr
  have hflag : (filterRegister cfg).Accepts (convertFrameIDCanardToRegister id) ↔
      (∀ i, 3 ≤ i → Holds (filterRegister cfg).fr2 i →
        (Holds (convertFrameIDCanardToRegister id) i ↔
          Holds (convertFrameIDCanardToRegister cfg.id) i)) ∧
      (Holds id 31 ↔ Holds cfg.id 31) ∧ (Holds id 30 ↔ Holds cfg.id 30) := by
    rw [← holds_toRegister_flags.1, ← holds_toRegister_flags.2, ← holds_toRegister_flags.1,
      ← holds_toRegister_flags.2, ← fr1_filterRegister h]
    constructor
    · intro ha
      have hide := ha.ide
      have hrtr := ha.rtr
      rw [FilterRegister.AcceptsFlag, if_pos (holds_fr2_flags h).1] at hide
      rw [FilterRegister.AcceptsFlag, if_pos (holds_fr2_flags h).2] at hrtr
      exact ⟨ha.field, hide, hrtr⟩
    · rintro ⟨hfield, hide, hrtr⟩
      refine ⟨hfield, ?_, ?_⟩
      · rw [FilterRegister.AcceptsFlag, if_pos (holds_fr2_flags h).1]
        exact hide
      · rw [FilterRegister.AcceptsFlag, if_pos (holds_fr2_flags h).2]
        exact hrtr
  rw [hflag, AcceptanceFilterConfig.Passes, and_eq_and_iff]
  by_cases he : Holds cfg.id 31
  · constructor
    · rintro ⟨hfield, hide, hrtr⟩ i hi
      have hid31 := hide.mpr he
      have hbits : i < 29 ∨ i = 29 ∨ i = 30 ∨ i = 31 ∨ 32 ≤ i := by omega
      rcases hbits with hlt | rfl | rfl | rfl | hge
      · have hbit := hfield (i + 3) (by omega) ((holds_fr2_field h (by omega)).mpr
          (by rw [if_pos he, Nat.add_sub_cancel]; exact ⟨by omega, hi⟩))
        rwa [holds_toRegister_field hid31 hlt, holds_toRegister_field he hlt] at hbit
      · exact iff_of_false herr' herrCfg
      · exact hrtr
      · exact hide
      · exact absurd hi (not_holds_of_le hge)
    · intro hp
      have hid31 := (hp 31 hmaskEff).mpr he
      refine ⟨fun i hi hmask => ?_, hp 31 hmaskEff, hp 30 hmaskRtr⟩
      rw [holds_fr2_field h hi, if_pos he] at hmask
      obtain ⟨j, rfl⟩ := Nat.exists_eq_add_of_le' hi
      rw [Nat.add_sub_cancel] at hmask
      rw [holds_toRegister_field hid31 (by omega), holds_toRegister_field he (by omega)]
      exact hp j hmask.2
  · constructor
    · rintro ⟨hfield, hide, hrtr⟩ i hi
      have hid31 := fun hbit => he (hide.mp hbit)
      have hbits : i < 11 ∨ (11 ≤ i ∧ i < 29) ∨ i = 29 ∨ i = 30 ∨ i = 31 ∨ 32 ≤ i := by omega
      rcases hbits with hlt | ⟨hge, hlt⟩ | rfl | rfl | rfl | hge
      · have hbit := hfield (i + 21) (by omega) ((holds_fr2_field h (by omega)).mpr
          (by rw [if_neg he, Nat.add_sub_cancel]; exact ⟨by omega, by omega, hi⟩))
        rwa [holds_toRegister_field_std hid31 hlt, holds_toRegister_field_std he hlt] at hbit
      · refine iff_of_false (fun hbit => ?_) fun hbit => ?_
        · have hcases := lt_of_holds hid hid31 hbit
          omega
        · have hcases := lt_of_holds h.proper he hbit
          omega
      · exact iff_of_false herr' herrCfg
      · exact hrtr
      · exact hide
      · exact absurd hi (not_holds_of_le hge)
    · intro hp
      have hid31 := fun hbit => he ((hp 31 hmaskEff).mp hbit)
      refine ⟨fun i hi hmask => ?_, hp 31 hmaskEff, hp 30 hmaskRtr⟩
      rw [holds_fr2_field h hi, if_neg he] at hmask
      obtain ⟨j, rfl⟩ := Nat.exists_eq_add_of_le' hmask.1
      rw [Nat.add_sub_cancel] at hmask
      rw [holds_toRegister_field_std hid31 (by omega), holds_toRegister_field_std he (by omega)]
      exact hp j hmask.2.2

end Filters

/-! ## What the cell lets pass -/

section Cell

variable {filterConfigs : List AcceptanceFilterConfig} {filters : List FilterRegister}
  {frame : CanardCANFrame}

/-- A frame passes the filters that were configured iff it passes one of those
that the node asked for. -/
theorem passes_filters_iff
    (hok : canardSTM32ConfigureAcceptanceFilters filterConfigs = (0, some filters))
    (hflags : ∀ cfg ∈ filterConfigs, AsksForFlags cfg) (hid : ProperId frame.id)
    (herr : frame.id &&& canardCanFrameErr = 0) :
    (∃ r ∈ filters, r.Accepts (convertFrameIDCanardToRegister frame.id)) ↔
      ∃ cfg ∈ filterConfigs, cfg.Passes frame.id := by
  rw [canardSTM32ConfigureAcceptanceFilters] at hok
  split at hok
  · cases hok
  cases hok
  constructor
  · rintro ⟨r, hr, haccepts⟩
    obtain ⟨cfg, hcfg, rfl⟩ := List.mem_map.mp hr
    exact ⟨cfg, hcfg, (accepts_iff_passes (hflags cfg hcfg) hid herr).mp haccepts⟩
  · rintro ⟨cfg, hcfg, hpasses⟩
    exact ⟨filterRegister cfg, List.mem_map_of_mem hcfg,
      (accepts_iff_passes (hflags cfg hcfg) hid herr).mpr hpasses⟩

/-- The filters of the node ask for both flags. -/
theorem asksForFlags_allocation : AsksForFlags allocationFilter where
  eff := by decide
  rtr := by decide
  proper := Or.inl (by decide)
  err := by decide

theorem asksForFlags_operational (nodeId : UInt8) : AsksForFlags (operationalFilter nodeId) where
  eff := (by decide : (operationalFilter 0).mask &&& canardCanFrameEff ≠ 0)
  rtr := (by decide : (operationalFilter 0).mask &&& canardCanFrameRtr ≠ 0)
  proper := Or.inl (holds_eff.mpr (holds_operationalId.mpr (Or.inr (Or.inr rfl))))
  err := by
    have hlt : nodeId.toNat < 2 ^ 21 := nodeId.toNat_lt.trans (by decide)
    refine (and_single_eq_zero_iff (n := 29) (by decide)).mpr fun hbit => ?_
    rcases holds_operationalId.mp hbit with h | ⟨-, h⟩ | h
    · omega
    · rw [Nat.testBit_lt_two_pow hlt] at h
      cases h
    · omega

/-- A request from node 10 to node 5. -/
def requestFrame : CanardCANFrame := { id := 0x9028858A, data := [0xC0] }

theorem passes_filters_iff_request :
    ∃ r ∈ [filterRegister (operationalFilter 5)],
      r.Accepts (convertFrameIDCanardToRegister requestFrame.id) := by
  have hflags : ∀ cfg ∈ [operationalFilter 5], AsksForFlags cfg := by
    intro cfg hcfg
    rw [List.mem_singleton.mp hcfg]
    exact asksForFlags_operational 5
  exact (passes_filters_iff rfl hflags (by decide) (by decide)).mpr
    ⟨operationalFilter 5, List.mem_singleton_self _, by decide⟩

end Cell

end CanardSTM32

end UavcanAdapter
