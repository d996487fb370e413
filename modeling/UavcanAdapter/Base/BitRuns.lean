/-
# `Base.BitRuns` — runs of bits that are copied

`copyRun` copies a run of bits from one byte string into another.  Runs that
lie one behind the other on both sides are one run (`copyRun_append`), and a
run inside a part of a byte string may be copied from that part
(`copyRun_part`).  So a long run may be copied piece by piece from a source
that is scattered over several places.
-/
import UavcanAdapter.Base.Parts

namespace Base

section BitRuns

variable {src dst l x r : List UInt8} {o o' n m k i : Nat}

/-- `dst` with the `n` bits from bit `o'` on taken from those of `src` from bit
`o` on. -/
def copyRun (src : List UInt8) (o n : Nat) (dst : List UInt8) (o' : Nat) : List UInt8 :=
  writeBits dst o' n (readBits src o n)

@[simp] theorem length_copyRun : (copyRun src o n dst o').length = dst.length :=
  length_writeBits ..

/-- The bits that are read, and zeros behind them. -/
theorem bitAt_readBits (src : List UInt8) (o n k : Nat) :
    bitAt (readBits src o n) k = (decide (k < n) && bitAt src (o + k)) := by
  have hk : 8 * (k / 8) + k % 8 = k := Nat.div_add_mod k 8
  rcases Nat.lt_or_ge (k / 8) ((n + 7) / 8) with hbyte | hbyte
  · have hlen : k / 8 < (readBits src o n).length := by rwa [length_readBits]
    rw [bitAt, List.getD_eq_getElem _ _ hlen]
    simp only [readBits, List.getElem_map, List.getElem_range]
    rw [testBit_byteOfBits _ (Nat.mod_lt k (by decide)), hk]
  · rw [bitAt, List.getD_eq_default _ _ (by rwa [length_readBits]), decide_eq_false (by omega)]
    exact Nat.zero_testBit _

theorem bitAt_copyRun (hk : k < 8 * dst.length) :
    bitAt (copyRun src o n dst o') k =
      if o' ≤ k ∧ k < o' + n then bitAt src (o + (k - o')) else bitAt dst k := by
  rw [copyRun, bitAt_writeBits hk, bitAt_readBits]
  split
  · rw [decide_eq_true (by omega), Bool.true_and]
  · rfl

@[simp] theorem copyRun_zero : copyRun src o 0 dst o' = dst := by
  refine ext_bitAt length_copyRun fun k hk => ?_
  rw [length_copyRun] at hk
  rw [bitAt_copyRun hk, if_neg (by omega)]

/-- Two runs, one behind the other on both sides, are one. -/
theorem copyRun_append (src dst : List UInt8) (o n m o' : Nat) :
    copyRun src (o + n) m (copyRun src o n dst o') (o' + n) = copyRun src o (n + m) dst o' := by
  refine ext_bitAt (by simp only [length_copyRun]) fun k hk => ?_
  simp only [length_copyRun] at hk
  rw [bitAt_copyRun (by rwa [length_copyRun]), bitAt_copyRun hk, bitAt_copyRun hk]
  by_cases hsnd : o' + n ≤ k ∧ k < o' + n + m
  · rw [if_pos hsnd, if_pos (by omega)]
    congr 1
    omega
  · rw [if_neg hsnd]
    by_cases hfst : o' ≤ k ∧ k < o' + n
    · rw [if_pos hfst, if_pos (by omega)]
    · rw [if_neg hfst, if_neg (by omega)]

/-- Sources with the same bits are as good as each other. -/
theorem copyRun_congr {src' : List UInt8} {i : Nat}
    (h : ∀ j < n, bitAt src (o + j) = bitAt src' (i + j)) :
    copyRun src o n dst o' = copyRun src' i n dst o' := by
  refine ext_bitAt (by simp only [length_copyRun]) fun k hk => ?_
  rw [length_copyRun] at hk
  rw [bitAt_copyRun hk, bitAt_copyRun hk]
  split
  · exact h _ (by omega)
  · rfl

/-- A run inside a part. -/
theorem copyRun_part (h : o + n ≤ 8 * x.length) :
    copyRun (l ++ x ++ r) (8 * l.length + o) n dst o' = copyRun x o n dst o' := by
  refine copyRun_congr fun j hj => ?_
  rw [List.append_assoc, bitAt_append_right (by omega), bitAt_append_left (by omega)]
  congr 1
  omega

/-- A run in front of the end. -/
theorem copyRun_take (h : o + n ≤ 8 * m) :
    copyRun (src.take m) o n dst o' = copyRun src o n dst o' := by
  refine copyRun_congr fun j hj => ?_
  have htake : src.take m = slice src 0 m := rfl
  rw [htake, bitAt_slice (by omega), Nat.mul_zero, Nat.zero_add]

/-- Bits behind the first `i` bytes. -/
theorem bitAt_drop : bitAt (src.drop i) k = bitAt src (8 * i + k) := by
  have hdiv : (8 * i + k) / 8 = i + k / 8 := by omega
  have hmod : (8 * i + k) % 8 = k % 8 := by omega
  rw [bitAt, bitAt, hdiv, hmod, List.getD_eq_getElem?_getD, List.getD_eq_getElem?_getD,
    List.getElem?_drop]

/-- The bytes in front of both runs do not matter. -/
theorem copyRun_drop (hm : m ≤ dst.length) :
    dst.take m ++ copyRun (src.drop i) o n (dst.drop m) o' =
      copyRun src (8 * i + o) n dst (8 * m + o') := by
  have htake : (dst.take m).length = m := List.length_take_of_le hm
  refine ext_bitAt ?_ fun k hk => ?_
  · rw [List.length_append, length_copyRun, length_copyRun, htake, List.length_drop]
    omega
  · rw [List.length_append, length_copyRun, htake, List.length_drop] at hk
    rw [bitAt_copyRun (by omega)]
    rcases Nat.lt_or_ge k (8 * m) with hfront | hback
    · have hslice : dst.take m = slice dst 0 m := rfl
      rw [bitAt_append_left (by rw [htake]; exact hfront), if_neg (by omega), hslice,
        bitAt_slice hfront, Nat.mul_zero, Nat.zero_add]
    · obtain ⟨j, rfl⟩ := Nat.exists_eq_add_of_le hback
      rw [bitAt_append_right (by rw [htake]; exact hback), htake, Nat.add_sub_cancel_left,
        bitAt_copyRun (by rw [List.length_drop]; omega), bitAt_drop, bitAt_drop]
      by_cases hin : o' ≤ j ∧ j < o' + n
      · rw [if_pos hin, if_pos (by omega), Nat.add_sub_add_left, Nat.add_assoc]
      · rw [if_neg hin, if_neg (by omega)]

/-- Bits of a byte string with one byte replaced. -/
theorem bitAt_set {b : UInt8} (hi : i < dst.length) :
    bitAt (dst.set i b) k =
      if k / 8 = i then b.toNat.testBit (7 - k % 8) else bitAt dst k := by
  rw [bitAt, bitAt, List.getD_eq_getElem?_getD, List.getD_eq_getElem?_getD, List.getElem?_set]
  by_cases hk : i = k / 8
  · rw [if_pos hk, if_pos hi, if_pos hk.symm, Option.getD_some]
  · rw [if_neg hk, if_neg (Ne.symm hk)]

/-- The bits of a little-endian number, from the lowest on. -/
theorem testBit_leNat (bs : List UInt8) (i : Nat) :
    (leNat bs).testBit i = (bs.getD (i / 8) 0).toNat.testBit (i % 8) := by
  induction bs generalizing i with
  | nil =>
      rw [leNat, List.getD_nil, Nat.zero_testBit]
      exact (Nat.zero_testBit _).symm
  | cons b bs ih =>
      have hbyte : b.toNat < 2 ^ 8 := b.toNat_lt
      rw [leNat, Nat.add_comm, show 256 = 2 ^ 8 from rfl, Nat.testBit_two_pow_mul_add _ hbyte]
      split
      · rename_i hlow
        rw [Nat.div_eq_of_lt hlow, Nat.mod_eq_of_lt hlow, List.getD_cons_zero]
      · rename_i hhigh
        have hdiv : i / 8 = (i - 8) / 8 + 1 := by omega
        have hmod : i % 8 = (i - 8) % 8 := by omega
        rw [ih, hdiv, List.getD_cons_succ, hmod]

/-- The bits of a byte, from the lowest on. -/
theorem testBit_getD (bs : List UInt8) (i : Nat) {j : Nat} (hj : j < 8) :
    (bs.getD i 0).toNat.testBit j = bitAt bs (8 * i + (7 - j)) := by
  have hdiv : (8 * i + (7 - j)) / 8 = i := by omega
  have hmod : (8 * i + (7 - j)) % 8 = 7 - j := by omega
  rw [bitAt, hdiv, hmod]
  congr 1
  omega

end BitRuns

end Base
