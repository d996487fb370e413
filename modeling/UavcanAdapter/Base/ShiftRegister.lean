/-
# `Base.ShiftRegister` — a feedback register that takes bits

A register of `w` bits, as it computes a cyclic redundancy code: with each
bit it takes it is shifted left, and where the bit that falls out differs
from the one it takes a polynomial is added.

All that is asked of the polynomial is that its lowest bit is set.  The
lowest bit of the register then says whether it was added
(`getLsbD_zero_shiftIn`), so a step can be undone, and two results follow.
Registers that differ stay different whatever they take
(`shiftInAll_injective`), and different bits, not more than the register has
places, leave different registers (`shiftInAll_inj_of_length_le`).
-/
import Mathlib.Tactic

namespace Base

section ShiftRegister

variable {w : Nat} (poly : BitVec w)

/-- The register `r` after it took bit `b`. -/
def shiftIn (r : BitVec w) (b : Bool) : BitVec w :=
  if (r.msb ^^ b) = true then (r <<< 1) ^^^ poly else r <<< 1

/-- The register after it took bit by bit. -/
def shiftInAll (r : BitVec w) (bs : List Bool) : BitVec w := bs.foldl (shiftIn poly) r

/-- The upper `n` bits of `y`, the most significant one first. -/
def topBits : Nat → BitVec w → List Bool
  | 0, _ => []
  | n + 1, y => y.msb :: topBits n (y <<< 1)

@[simp] theorem length_topBits : ∀ (n : Nat) (y : BitVec w), (topBits n y).length = n
  | 0, _ => rfl
  | n + 1, y => by rw [topBits, List.length_cons, length_topBits n]

variable {poly} {r r' : BitVec w} {b b' : Bool}

theorem shiftInAll_cons (bs : List Bool) :
    shiftInAll poly r (b :: bs) = shiftInAll poly (shiftIn poly r b) bs := rfl

theorem shiftInAll_append (as bs : List Bool) :
    shiftInAll poly r (as ++ bs) = shiftInAll poly (shiftInAll poly r as) bs :=
  List.foldl_append

/-! ## Whole words -/

/-- A word that is added to the register in front of a step is, up to its
upper bit, added behind it. -/
theorem shiftIn_xor (y : BitVec w) :
    shiftIn poly (r ^^^ y) b = shiftIn poly r (y.msb ^^ b) ^^^ (y <<< 1) := by
  have hmsb : ((r ^^^ y).msb ^^ b) = (r.msb ^^ (y.msb ^^ b)) := by
    rw [BitVec.msb_xor, Bool.xor_assoc]
  rw [shiftIn, shiftIn, hmsb, BitVec.shiftLeft_xor_distrib]
  split
  · rw [BitVec.xor_assoc, BitVec.xor_comm (y <<< 1) poly, ← BitVec.xor_assoc]
  · rfl

/-- To take the upper bits of a word is to add it and to take zeros. -/
theorem shiftInAll_replicate : ∀ (n : Nat) (r y : BitVec w),
    shiftInAll poly (r ^^^ y) (List.replicate n false) =
      shiftInAll poly r (topBits n y) ^^^ (y <<< n)
  | 0, r, y => by rw [BitVec.shiftLeft_zero]; rfl
  | n + 1, r, y => by
      rw [List.replicate_succ, shiftInAll_cons, shiftIn_xor, Bool.xor_false,
        shiftInAll_replicate n, ← BitVec.shiftLeft_add, Nat.add_comm 1 n]
      rfl

/-! ## What is never lost -/

theorem getLsbD_succ_shiftIn {i : Nat} (hi : i + 1 < w) :
    (shiftIn poly r b).getLsbD (i + 1) =
      (r.getLsbD i ^^ ((r.msb ^^ b) && poly.getLsbD (i + 1))) := by
  have hshift : (r <<< 1).getLsbD (i + 1) = r.getLsbD i := by
    rw [BitVec.getLsbD_shiftLeft]
    simp [hi]
  rw [shiftIn]
  split
  · rename_i h
    rw [BitVec.getLsbD_xor, hshift, h, Bool.true_and]
  · rename_i h
    rw [Bool.not_eq_true] at h
    rw [hshift, h, Bool.false_and, Bool.xor_false]

section Odd

variable (hpoly : poly.getLsbD 0 = true)

include hpoly

/-- The lowest bit says whether the polynomial was added. -/
theorem getLsbD_zero_shiftIn : (shiftIn poly r b).getLsbD 0 = (r.msb ^^ b) := by
  rw [shiftIn]
  split
  · rename_i h
    simp [hpoly, h]
  · rename_i h
    simpa using h

/-- Where the lower bits agree behind a step, the polynomial was added to both
registers or to none, and all but one of the lower bits agreed in front of
it. -/
theorem agree_of_shiftIn {n : Nat} (hn : n + 1 ≤ w)
    (h : ∀ i < n + 1, (shiftIn poly r b).getLsbD i = (shiftIn poly r' b').getLsbD i) :
    (r.msb ^^ b) = (r'.msb ^^ b') ∧ ∀ i < n, r.getLsbD i = r'.getLsbD i := by
  have hout : (r.msb ^^ b) = (r'.msb ^^ b') := by
    have h0 := h 0 (Nat.succ_pos n)
    rwa [getLsbD_zero_shiftIn hpoly, getLsbD_zero_shiftIn hpoly] at h0
  refine ⟨hout, fun i hi => ?_⟩
  have hbit := h (i + 1) (by omega)
  rw [getLsbD_succ_shiftIn (by omega), getLsbD_succ_shiftIn (by omega), hout] at hbit
  exact Bool.xor_left_inj.mp hbit

theorem agree_of_shiftInAll : ∀ {bs bs' : List Bool} {r r' : BitVec w} {n : Nat},
    bs.length = bs'.length → n + bs.length ≤ w →
      (∀ i < n + bs.length,
        (shiftInAll poly r bs).getLsbD i = (shiftInAll poly r' bs').getLsbD i) →
      ∀ i < n, r.getLsbD i = r'.getLsbD i
  | [], [], _, _, _, _, _, h => h
  | b :: bs, b' :: bs', r, r', n, hlen, hw, h => by
      rw [List.length_cons] at hw h
      have hlen' : bs.length = bs'.length := by simpa using hlen
      have hnext : ∀ i < n + 1, (shiftIn poly r b).getLsbD i = (shiftIn poly r' b').getLsbD i :=
        agree_of_shiftInAll hlen' (by omega) fun i hi => h i (by omega)
      exact (agree_of_shiftIn hpoly (by omega) hnext).2

/-- Registers that are different stay so when they take the same bit. -/
theorem shiftIn_injective (h : shiftIn poly r b = shiftIn poly r' b) : r = r' := by
  rcases Nat.eq_zero_or_pos w with rfl | hw
  · exact Subsingleton.elim r r'
  obtain ⟨hout, hlow⟩ := agree_of_shiftIn hpoly (n := w - 1) (by omega) fun i _ =>
    congrArg (·.getLsbD i) h
  have hmsb : r.msb = r'.msb := Bool.xor_left_inj.mp hout
  apply BitVec.eq_of_getLsbD_eq
  intro i hi
  rcases Nat.lt_or_ge i (w - 1) with hlt | hge
  · exact hlow i hlt
  · obtain rfl : i = w - 1 := by omega
    rwa [BitVec.msb_eq_getLsbD_last, BitVec.msb_eq_getLsbD_last] at hmsb

theorem shiftInAll_injective : ∀ {bs : List Bool} {r r' : BitVec w},
    shiftInAll poly r bs = shiftInAll poly r' bs → r = r'
  | [], _, _, h => h
  | _ :: _, _, _, h => shiftIn_injective hpoly (shiftInAll_injective h)

/-- Not more bits than the register has places: they can be told from what
they leave. -/
theorem shiftInAll_inj_of_length_le : ∀ {bs bs' : List Bool} {r : BitVec w},
    bs.length = bs'.length → bs.length ≤ w → shiftInAll poly r bs = shiftInAll poly r bs' →
      bs = bs'
  | [], [], _, _, _, _ => rfl
  | b :: bs, b' :: bs', r, hlen, hw, h => by
      rw [List.length_cons] at hw
      have hlen' : bs.length = bs'.length := by simpa using hlen
      have hnext : ∀ i < 1, (shiftIn poly r b).getLsbD i = (shiftIn poly r b').getLsbD i :=
        agree_of_shiftInAll hpoly hlen' (by omega) fun i _ => congrArg (·.getLsbD i) h
      obtain ⟨hout, -⟩ := agree_of_shiftIn hpoly (n := 0) (by omega) hnext
      obtain rfl : b = b' := Bool.xor_right_inj.mp hout
      rw [shiftInAll_inj_of_length_le hlen' (by omega) h]

/-- A burst of wrong bits that fits into the register is seen. -/
theorem shiftInAll_burst {bs bs' : List Bool} (hlen : bs.length = bs'.length) (hw : bs.length ≤ w)
    (hne : bs ≠ bs') (as cs : List Bool) :
    shiftInAll poly r (as ++ bs ++ cs) ≠ shiftInAll poly r (as ++ bs' ++ cs) := by
  intro h
  simp only [shiftInAll_append] at h
  exact hne (shiftInAll_inj_of_length_le hpoly hlen hw (shiftInAll_injective hpoly h))

/-- The same, said of the places that may be wrong. -/
theorem shiftInAll_ne_of_window {bs bs' : List Bool} {k : Nat} (hlen : bs.length = bs'.length)
    (hne : bs ≠ bs') (hwindow : ∀ i, bs[i]? ≠ bs'[i]? → k ≤ i ∧ i < k + w) :
    shiftInAll poly r bs ≠ shiftInAll poly r bs' := by
  have hsplit : ∀ l : List Bool, l = l.take k ++ (l.drop k).take w ++ l.drop (k + w) := by
    intro l
    rw [← List.take_add, List.take_append_drop]
  have hsame : ∀ i, ¬(k ≤ i ∧ i < k + w) → bs[i]? = bs'[i]? :=
    fun i hi => not_not.mp fun hdiff => hi (hwindow i hdiff)
  have hfront : bs.take k = bs'.take k := by
    apply List.ext_getElem?
    intro i
    rw [List.getElem?_take, List.getElem?_take]
    split
    · exact hsame i (by omega)
    · rfl
  have hback : bs.drop (k + w) = bs'.drop (k + w) := by
    apply List.ext_getElem?
    intro i
    rw [List.getElem?_drop, List.getElem?_drop]
    exact hsame _ (by omega)
  have hmid : (bs.drop k).take w ≠ (bs'.drop k).take w := by
    intro hmid
    apply hne
    rw [hsplit bs, hsplit bs', hfront, hback, hmid]
  rw [hsplit bs, hsplit bs', hfront, hback]
  refine shiftInAll_burst hpoly ?_ ?_ hmid _ _
  · rw [List.length_take, List.length_take, List.length_drop, List.length_drop, hlen]
  · rw [List.length_take]
    exact Nat.min_le_left _ _

end Odd

end ShiftRegister

end Base
