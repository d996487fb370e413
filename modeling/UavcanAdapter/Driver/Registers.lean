/-
# `Driver.Registers` — frames in the registers of the CAN cell

The CAN cell has the identifier of a frame in one register and its bytes in
two others.  The driver for it converts what the library calls a frame to the
registers of a mailbox and back.

What a frame becomes there is the frame again, if its identifier is one the
library can mean (`toFrame_ofFrame`); so the frames that wait in the mailboxes
can be compared with a new one.  The comparison is that of the library
(`isFramePriorityHigher_eq`).
-/
import UavcanAdapter.Base.Registers
import UavcanAdapter.Canard.TxQueue

namespace UavcanAdapter

open Base Base.BitSet

namespace CanardSTM32

/-- `CANARD_STM32_CAN_TIR_TXRQ`. -/
def canTirTxrq : UInt32 := (1 : UInt32) <<< 0

/-- `CANARD_STM32_CAN_TIR_RTR`, which is `CANARD_STM32_CAN_RIR_RTR` too. -/
def canTirRtr : UInt32 := (1 : UInt32) <<< 1

/-- `CANARD_STM32_CAN_TIR_IDE`, which is `CANARD_STM32_CAN_RIR_IDE` too. -/
def canTirIde : UInt32 := (1 : UInt32) <<< 2

/-- `isFramePriorityHigher`. -/
def isFramePriorityHigher (a b : UInt32) : Bool :=
  let cleanA := a &&& canardCanExtIdMask
  let cleanB := b &&& canardCanExtIdMask
  let extA := decide (a &&& canardCanFrameEff ≠ 0)
  let extB := decide (b &&& canardCanFrameEff ≠ 0)
  if extA ≠ extB then
    let arb11A := if extA then cleanA >>> 18 else cleanA
    let arb11B := if extB then cleanB >>> 18 else cleanB
    if arb11A ≠ arb11B then decide (arb11A < arb11B) else extB
  else
    let rtrA := decide (a &&& canardCanFrameRtr ≠ 0)
    let rtrB := decide (b &&& canardCanFrameRtr ≠ 0)
    if cleanA = cleanB ∧ rtrA ≠ rtrB then rtrB else decide (cleanA < cleanB)

/-- The driver compares frames as the library does. -/
theorem isFramePriorityHigher_eq (a b : UInt32) :
    isFramePriorityHigher a b = isPriorityHigher b a := rfl

/-- `convertFrameIDCanardToRegister`. -/
def convertFrameIDCanardToRegister (id : UInt32) : UInt32 :=
  let out :=
    if id &&& canardCanFrameEff ≠ 0 then ((id &&& canardCanExtIdMask) <<< 3) ||| canTirIde
    else (id &&& canardCanStdIdMask) <<< 21
  if id &&& canardCanFrameRtr ≠ 0 then out ||| canTirRtr else out

/-- `convertFrameIDRegisterToCanard`. -/
def convertFrameIDRegisterToCanard (id : UInt32) : UInt32 :=
  let out :=
    if id &&& canTirIde = 0 then canardCanStdIdMask &&& (id >>> 21)
    else (canardCanExtIdMask &&& (id >>> 3)) ||| canardCanFrameEff
  if id &&& canTirRtr ≠ 0 then out ||| canardCanFrameRtr else out

/-- The registers of a mailbox. -/
structure Mailbox where
  ir : UInt32
  dtr : UInt32
  dlr : UInt32
  dhr : UInt32

/-- What `canardSTM32Transmit` writes to the registers. -/
def Mailbox.ofFrame (frame : CanardCANFrame) : Mailbox where
  dtr := frame.data.length.toUInt32
  dhr := joinBytes (frame.data.getD 4 0) (frame.data.getD 5 0) (frame.data.getD 6 0)
    (frame.data.getD 7 0)
  dlr := joinBytes (frame.data.getD 0 0) (frame.data.getD 1 0) (frame.data.getD 2 0)
    (frame.data.getD 3 0)
  ir := convertFrameIDCanardToRegister frame.id ||| canTirTxrq

/-- `CANARD_STM32_CAN_RDTR_DLC_MASK`. -/
def canRdtrDlcMask : UInt32 := 0x0F

theorem length_take_splitBytes (n : Nat) (w w' : UInt32) :
    ((splitBytes w ++ splitBytes w').take n).length ≤ 8 :=
  List.length_take_le' n (splitBytes w ++ splitBytes w')

/-- What `canardSTM32Receive` reads from the registers. -/
def Mailbox.toFrame (mb : Mailbox) : CanardCANFrame where
  id := convertFrameIDRegisterToCanard mb.ir
  data := (splitBytes mb.dlr ++ splitBytes mb.dhr).take (mb.dtr &&& canRdtrDlcMask).toNat
  data_len_le := length_take_splitBytes _ mb.dlr mb.dhr

/-! ## There and back -/

section Registers

variable {id r : UInt32} {i : Nat}

theorem holds_eff : id &&& canardCanFrameEff ≠ 0 ↔ Holds id 31 := by
  rw [show canardCanFrameEff = single 31 from rfl, ne_eq, and_single_eq_zero_iff (by decide),
    not_not]

theorem holds_rtr : id &&& canardCanFrameRtr ≠ 0 ↔ Holds id 30 := by
  rw [show canardCanFrameRtr = single 30 from rfl, ne_eq, and_single_eq_zero_iff (by decide),
    not_not]

theorem holds_tirIde : r &&& canTirIde = 0 ↔ ¬Holds r 2 :=
  and_single_eq_zero_iff (n := 2) (by decide)

theorem holds_tirRtr : r &&& canTirRtr ≠ 0 ↔ Holds r 1 := by
  rw [show canTirRtr = single 1 from rfl, ne_eq, and_single_eq_zero_iff (by decide), not_not]

theorem holds_extIdMask : Holds canardCanExtIdMask i ↔ i < 29 :=
  holds_below (n := 29) (by decide)

theorem holds_stdIdMask : Holds canardCanStdIdMask i ↔ i < 11 :=
  holds_below (n := 11) (by decide)

theorem holds_ite_or {p : Prop} [Decidable p] {x y : UInt32} :
    Holds (if p then x ||| y else x) i ↔ Holds x i ∨ (p ∧ Holds y i) := by
  by_cases h : p
  · rw [if_pos h, holds_or, and_iff_right h]
  · rw [if_neg h, or_iff_left fun hy => h hy.1]

theorem holds_toRegister_ext (he : Holds id 31) :
    Holds (convertFrameIDCanardToRegister id) i ↔
      ((3 ≤ i ∧ i < 32 ∧ Holds id (i - 3)) ∨ i = 2) ∨ (Holds id 30 ∧ i = 1) := by
  have hfield : Holds ((id &&& canardCanExtIdMask) <<< 3) i ↔
      3 ≤ i ∧ i < 32 ∧ Holds id (i - 3) := by
    rw [show (3 : UInt32) = UInt32.ofNat 3 from rfl, holds_shiftLeft (by decide), holds_and,
      holds_extIdMask]
    exact ⟨fun h => ⟨h.1, h.2.1, h.2.2.1⟩, fun h => ⟨h.1, h.2.1, h.2.2, by omega⟩⟩
  rw [convertFrameIDCanardToRegister, if_pos (holds_eff.mpr he), holds_ite_or, holds_or, hfield,
    holds_rtr, show canTirIde = single 2 from rfl, show canTirRtr = single 1 from rfl,
    holds_single (by decide), holds_single (by decide)]

theorem holds_toRegister_std (he : ¬Holds id 31) :
    Holds (convertFrameIDCanardToRegister id) i ↔
      (21 ≤ i ∧ i < 32 ∧ Holds id (i - 21)) ∨ (Holds id 30 ∧ i = 1) := by
  have hfield : Holds ((id &&& canardCanStdIdMask) <<< 21) i ↔
      21 ≤ i ∧ i < 32 ∧ Holds id (i - 21) := by
    rw [show (21 : UInt32) = UInt32.ofNat 21 from rfl, holds_shiftLeft (by decide), holds_and,
      holds_stdIdMask]
    exact ⟨fun h => ⟨h.1, h.2.1, h.2.2.1⟩, fun h => ⟨h.1, h.2.1, h.2.2, by omega⟩⟩
  rw [convertFrameIDCanardToRegister, if_neg (fun h => he (holds_eff.mp h)), holds_ite_or, hfield,
    holds_rtr, show canTirRtr = single 1 from rfl, holds_single (by decide)]

theorem holds_toCanard_ext (he : Holds r 2) : Holds (convertFrameIDRegisterToCanard r) i ↔
    ((i < 29 ∧ Holds r (i + 3)) ∨ i = 31) ∨ (Holds r 1 ∧ i = 30) := by
  rw [convertFrameIDRegisterToCanard, if_neg (fun h => holds_tirIde.mp h he), holds_ite_or,
    holds_or, holds_and, holds_extIdMask, show (3 : UInt32) = UInt32.ofNat 3 from rfl,
    holds_shiftRight (by decide), holds_tirRtr, show canardCanFrameEff = single 31 from rfl,
    show canardCanFrameRtr = single 30 from rfl, holds_single (by decide),
    holds_single (by decide)]

theorem holds_toCanard_std (he : ¬Holds r 2) : Holds (convertFrameIDRegisterToCanard r) i ↔
    (i < 11 ∧ Holds r (i + 21)) ∨ (Holds r 1 ∧ i = 30) := by
  rw [convertFrameIDRegisterToCanard, if_pos (holds_tirIde.mpr he), holds_ite_or, holds_and,
    holds_stdIdMask, show (21 : UInt32) = UInt32.ofNat 21 from rfl, holds_shiftRight (by decide),
    holds_tirRtr, show canardCanFrameRtr = single 30 from rfl, holds_single (by decide)]

theorem holds_txrq : Holds (r ||| canTirTxrq) (i + 1) ↔ Holds r (i + 1) := by
  have hne : ¬Holds canTirTxrq (i + 1) := fun h => by
    have hzero := (holds_single (n := 0) (by decide)).mp h
    omega
  rw [holds_or, or_iff_left hne]

/-- A standard identifier has nothing between its eleven bits and the flags. -/
theorem lt_of_holds (h : ProperId id) (he : ¬Holds id 31) (hi : Holds id i) :
    i < 11 ∨ 29 ≤ i := by
  by_contra hcon
  rcases h with heff | hlt
  · exact he (holds_eff.mp heff)
  · have hbit : Holds (id &&& canardCanExtIdMask) i :=
      holds_and.mpr ⟨hi, holds_extIdMask.mpr (by omega)⟩
    exact absurd hbit (not_holds_of_lt hlt (by omega))

/-- The identifier in the register of a mailbox is that of the frame. -/
theorem toCanard_toRegister (h : ProperId id) (herr : id &&& canardCanFrameErr = 0) :
    convertFrameIDRegisterToCanard (convertFrameIDCanardToRegister id ||| canTirTxrq) = id := by
  have herr' : ¬Holds id 29 := (and_single_eq_zero_iff (n := 29) (by decide)).mp herr
  apply ext_holds
  intro i
  -- the flags of the identifier are its three highest bits
  have hbits : i < 29 ∨ i = 29 ∨ i = 30 ∨ i = 31 ∨ 32 ≤ i := by omega
  by_cases he : Holds id 31
  · have hide : Holds (convertFrameIDCanardToRegister id ||| canTirTxrq) 2 := by
      rw [holds_txrq, holds_toRegister_ext he]
      exact Or.inl (Or.inr rfl)
    have hrtr : Holds (convertFrameIDCanardToRegister id ||| canTirTxrq) 1 ↔ Holds id 30 := by
      rw [holds_txrq (i := 0), holds_toRegister_ext he]
      simp
    have hfield : Holds (convertFrameIDCanardToRegister id ||| canTirTxrq) (i + 3) ↔
        i < 29 ∧ Holds id i := by
      rw [holds_txrq (i := i + 2), holds_toRegister_ext he,
        show i + 2 + 1 - 3 = i by omega]
      constructor
      · rintro ((⟨-, hlt, hi⟩ | h2) | ⟨-, h1⟩)
        · exact ⟨by omega, hi⟩
        · omega
        · omega
      · exact fun hi => Or.inl (Or.inl ⟨by omega, by omega, hi.2⟩)
    rw [holds_toCanard_ext hide, hrtr, hfield]
    rcases hbits with hlt | rfl | rfl | rfl | hge
    · simp [hlt, show i ≠ 31 by omega, show i ≠ 30 by omega]
    · simp [herr']
    · simp
    · simp [he]
    · simp [not_holds_of_le hge, show i ≠ 31 by omega, show i ≠ 30 by omega]
  · have hide : ¬Holds (convertFrameIDCanardToRegister id ||| canTirTxrq) 2 := by
      rw [holds_txrq (i := 1), holds_toRegister_std he]
      simp
    have hrtr : Holds (convertFrameIDCanardToRegister id ||| canTirTxrq) 1 ↔ Holds id 30 := by
      rw [holds_txrq (i := 0), holds_toRegister_std he]
      simp
    have hfield : Holds (convertFrameIDCanardToRegister id ||| canTirTxrq) (i + 21) ↔
        i < 11 ∧ Holds id i := by
      rw [holds_txrq (i := i + 20), holds_toRegister_std he,
        show i + 20 + 1 - 21 = i by omega]
      constructor
      · rintro (⟨-, hlt, hi⟩ | ⟨-, h1⟩)
        · exact ⟨by omega, hi⟩
        · omega
      · exact fun hi => Or.inl ⟨by omega, by omega, hi.2⟩
    rw [holds_toCanard_std hide, hrtr, hfield]
    rcases hbits with hlt | rfl | rfl | rfl | hge
    · constructor
      · rintro (⟨-, -, hi⟩ | ⟨-, h30⟩)
        · exact hi
        · omega
      · intro hi
        have h11 : i < 11 := (lt_of_holds h he hi).resolve_right (by omega)
        exact Or.inl ⟨h11, h11, hi⟩
    · simp [herr']
    · simp
    · simp [he]
    · simp [not_holds_of_le hge, show ¬i < 11 by omega, show i ≠ 30 by omega]

/-- What a frame becomes in the registers of a mailbox is the frame again. -/
theorem toFrame_ofFrame {frame : CanardCANFrame} (h : ProperId frame.id)
    (herr : frame.id &&& canardCanFrameErr = 0) : (Mailbox.ofFrame frame).toFrame = frame := by
  obtain ⟨fid, data, hlen⟩ := frame
  have hdlc : (data.length.toUInt32 &&& canRdtrDlcMask).toNat = data.length := by
    rw [UInt32.toNat_and, show canRdtrDlcMask.toNat = 2 ^ 4 - 1 from rfl,
      Nat.and_two_pow_sub_one_eq_mod, Nat.toUInt32, UInt32.toNat_ofNat']
    omega
  rw [Mailbox.toFrame, Mailbox.ofFrame]
  congr 1
  · exact toCanard_toRegister h herr
  · rw [splitBytes_joinBytes, splitBytes_joinBytes, hdlc]
    apply List.ext_getElem
    · simp
      omega
    · intro k hk hk'
      have h8 : k < 8 := by omega
      rw [List.getElem_take]
      interval_cases k <;> simp [List.getElem?_eq_getElem hk']

end Registers

end CanardSTM32

end UavcanAdapter
