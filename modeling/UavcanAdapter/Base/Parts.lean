/-
# `Base.Parts` — byte strings made of parts

A message is written part by part into a buffer of zeros and read back at
fixed places.  `filled n w` is such a buffer once `w` was written; the next
part goes right behind it (`storeAt_filled`), or it is skipped
(`filled_zeros`).  What is read at the place of a part is the part
(`slice_flatten`), and a run of bits inside a part is one of the part's own
(`writeBits_append`, `bitsNat_slice`).
-/
import Mathlib.Data.List.GetD
import UavcanAdapter.Base.Bits
import UavcanAdapter.Base.Call

namespace Base

/-! ## A buffer that is filled from the front -/

section Filled

variable {n o : Nat} {w p : List UInt8}

/-- A buffer of `n` bytes that starts with `w`; the rest is zero. -/
def filled (n : Nat) (w : List UInt8) : List UInt8 := w ++ List.replicate (n - w.length) 0

theorem filled_nil (n : Nat) : filled n [] = List.replicate n 0 := rfl

theorem length_filled (h : w.length ≤ n) : (filled n w).length = n := by
  rw [filled, List.length_append, List.length_replicate]
  omega

theorem take_filled : (filled n w).take w.length = w := List.take_left

/-- The zeros behind `w` are there already. -/
theorem filled_zeros {k : Nat} (h : w.length + k ≤ n) :
    filled n (w ++ List.replicate k 0) = filled n w := by
  have hsum : n - w.length = k + (n - (w.length + k)) := by omega
  rw [filled, filled, List.length_append, List.length_replicate, hsum,
    List.replicate_add, List.append_assoc]

/-- The next part goes right behind the others. -/
theorem patch_filled (ho : w.length = o) (h : o + p.length ≤ n) :
    patch (filled n w) o p = filled n (w ++ p) := by
  subst ho
  have hsum : n - w.length = p.length + (n - (w.length + p.length)) := by omega
  rw [filled, hsum, List.replicate_add, ← List.append_assoc,
    patch_append_append (List.length_replicate).symm, filled, List.length_append]

theorem storeAt_filled (ho : w.length = o) (h : o + p.length ≤ n) :
    Call.storeAt (filled n w) o p = .ok (filled n (w ++ p)) := by
  rw [Call.storeAt_of_le (by rw [length_filled (by omega)]; exact h), patch_filled ho h]

end Filled

/-! ## Reading parts -/

/-- What is read at the place of a part is the part. -/
theorem slice_flatten {α : Type} : ∀ (parts : List (List α)) (i : Nat) (h : i < parts.length),
    slice parts.flatten ((parts.map List.length).take i).sum parts[i].length = parts[i]
  | [], i, h => absurd h (Nat.not_lt_zero i)
  | p :: parts, 0, h => by
      rw [List.take_zero, List.sum_nil, slice_zero]
      exact List.take_left
  | p :: parts, i + 1, h => by
      have ih := slice_flatten parts i (Nat.lt_of_succ_lt_succ h)
      rw [List.map_cons, List.take_succ_cons, List.sum_cons, List.flatten_cons,
        List.getElem_cons_succ, slice, ← List.drop_drop, List.drop_left]
      exact ih

/-- The same for a part whose place and length are known. -/
theorem slice_part {α : Type} {parts : List (List α)} {p : List α} {o k : Nat} (i : Nat)
    (hp : parts[i]? = some p) (ho : ((parts.map List.length).take i).sum = o)
    (hk : p.length = k) : slice parts.flatten o k = p := by
  obtain ⟨hi, rfl⟩ := List.getElem?_eq_some_iff.mp hp
  rw [← ho, ← hk]
  exact slice_flatten parts i hi

/-- The little-endian number in the `k` bytes from offset `o` on. -/
def scalarAt (bs : List UInt8) (o k : Nat) : Nat := leNat (slice bs o k)

/-- A number is read at the place of the part that holds it. -/
theorem scalarAt_part {parts : List (List UInt8)} {o k v : Nat} (i : Nat)
    (hp : parts[i]? = some (leBytes k v)) (ho : ((parts.map List.length).take i).sum = o)
    (hv : v < 256 ^ k) : scalarAt parts.flatten o k = v := by
  rw [scalarAt, slice_part i hp ho (length_leBytes k v), leNat_leBytes_of_lt hv]

theorem leBytes_one (b : UInt8) : leBytes 1 b.toNat = [b] := by
  rw [leBytes, leBytes, UInt8.ofNat_toNat]

/-! ## Runs of bits inside a part -/

/-- The bits of a byte are those it was made of. -/
theorem testBit_byteOfBits (f : Nat → Bool) {j : Nat} (h : j < 8) :
    (byteOfBits f).toNat.testBit (7 - j) = f j := by
  have hall : ∀ b₀ b₁ b₂ b₃ b₄ b₅ b₆ b₇ : Bool, ∀ j : Fin 8,
      (byteOfBits fun i => [b₀, b₁, b₂, b₃, b₄, b₅, b₆, b₇].getD i false).toNat.testBit (7 - j) =
        [b₀, b₁, b₂, b₃, b₄, b₅, b₆, b₇].getD j false := by
    decide +kernel
  have hbits : ∀ i < 8, [f 0, f 1, f 2, f 3, f 4, f 5, f 6, f 7].getD i false = f i := by
    intro i hi
    interval_cases i <;> rfl
  have h' := hall (f 0) (f 1) (f 2) (f 3) (f 4) (f 5) (f 6) (f 7) ⟨j, h⟩
  rw [byteOfBits_congr hbits, hbits j h] at h'
  exact h'

section BitRuns

variable {l r w x src : List UInt8} {i k n o : Nat}

theorem bitAt_append_left (h : k < 8 * l.length) : bitAt (l ++ r) k = bitAt l k := by
  have hbyte : k / 8 < l.length := by omega
  rw [bitAt, bitAt, List.getD_append _ _ _ _ hbyte]

theorem bitAt_append_right (h : 8 * l.length ≤ k) :
    bitAt (l ++ r) k = bitAt r (k - 8 * l.length) := by
  have hbyte : l.length ≤ k / 8 := by omega
  have hdiv : (k - 8 * l.length) / 8 = k / 8 - l.length := by omega
  have hmod : (k - 8 * l.length) % 8 = k % 8 := by omega
  rw [bitAt, bitAt, List.getD_append_right _ _ _ _ hbyte, hdiv, hmod]

/-- The bits of a piece are those of the whole. -/
theorem bitAt_slice {bs : List UInt8} (h : o < 8 * n) :
    bitAt (slice bs i n) o = bitAt bs (8 * i + o) := by
  have hdiv : (8 * i + o) / 8 = i + o / 8 := by omega
  have hmod : (8 * i + o) % 8 = o % 8 := by omega
  rw [bitAt, bitAt, hdiv, hmod, List.getD_eq_getElem?_getD, List.getD_eq_getElem?_getD,
    getElem?_slice (by omega)]

/-- Byte strings of one length with the same bits are equal. -/
theorem ext_bitAt (hlen : l.length = r.length)
    (h : ∀ k < 8 * l.length, bitAt l k = bitAt r k) : l = r := by
  apply List.ext_getElem hlen
  intro i hl hr
  have hbits : byteOfBits (fun j => bitAt l (8 * i + j)) = byteOfBits fun j => bitAt r (8 * i + j) :=
    byteOfBits_congr fun j hj => h _ (by omega)
  rw [byteOfBits_bitAt, byteOfBits_bitAt, List.getD_eq_getElem _ _ hl,
    List.getD_eq_getElem _ _ hr] at hbits
  exact hbits

/-- A run of bits that is written is read back, and the others are kept. -/
theorem bitAt_writeBits {dst : List UInt8} (h : k < 8 * dst.length) :
    bitAt (writeBits dst o n src) k =
      if o ≤ k ∧ k < o + n then bitAt src (k - o) else bitAt dst k := by
  have hbyte : k / 8 < (writeBits dst o n src).length := by
    rw [length_writeBits]
    omega
  have hk : 8 * (k / 8) + k % 8 = k := by omega
  rw [bitAt, List.getD_eq_getElem _ _ hbyte]
  simp only [writeBits, List.getElem_map, List.getElem_range]
  rw [testBit_byteOfBits _ (by omega), hk]

/-- A run of bits that is written inside a part leaves the others alone. -/
theorem writeBits_append (h : o + n ≤ 8 * x.length) :
    writeBits (w ++ x ++ r) (8 * w.length + o) n src = w ++ writeBits x o n src ++ r := by
  apply ext_bitAt
  · simp only [List.length_append, length_writeBits]
  intro k hk
  rw [length_writeBits] at hk
  rw [bitAt_writeBits hk]
  rcases Nat.lt_or_ge k (8 * w.length) with hw | hw
  · rw [if_neg (by omega), List.append_assoc, bitAt_append_left hw, List.append_assoc,
      bitAt_append_left hw]
  obtain ⟨j, rfl⟩ := Nat.exists_eq_add_of_le hw
  rw [List.append_assoc, bitAt_append_right hw, List.append_assoc, bitAt_append_right hw,
    Nat.add_sub_cancel_left]
  rcases Nat.lt_or_ge j (8 * x.length) with hx | hx
  · rw [bitAt_append_left hx, bitAt_append_left (by rw [length_writeBits]; exact hx),
      bitAt_writeBits hx]
    split
    · rw [if_pos (by omega), Nat.add_sub_add_left]
    · rw [if_neg (by omega)]
  · rw [if_neg (by omega), bitAt_append_right hx,
      bitAt_append_right (by rw [length_writeBits]; exact hx), length_writeBits]

/-- The number in the `n` bits from bit `o` on, most significant first. -/
def bitsNat (bs : List UInt8) (o : Nat) : Nat → Nat
  | 0 => 0
  | n + 1 => 2 * bitsNat bs o n + (bitAt bs (o + n)).toNat

theorem bitsNat_slice {bs : List UInt8} : ∀ {n : Nat}, o + n ≤ 8 * k →
    bitsNat (slice bs i k) o n = bitsNat bs (8 * i + o) n
  | 0, _ => rfl
  | n + 1, h => by
      rw [bitsNat, bitsNat, bitsNat_slice (by omega), bitAt_slice (by omega), Nat.add_assoc]

end BitRuns

end Base
