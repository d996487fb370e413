/-
# `Canard.BitCopy` — copying bits between arrays

`copyBitArray` goes through the bits in steps that stay inside one byte of
the source and one of the destination, and merges each piece into its byte
with a mask.  A step copies a run of bits (`mergeByte_spec`, `copyLoop_step`),
so the loop copies one, and it returns iff source and destination are long
enough (`copyBitArray_eq_ok`).
-/
import UavcanAdapter.Base.BitRuns

namespace UavcanAdapter

open Base

/-- `write_mask`. -/
def writeMask (copyBits dstBitOffset : Nat) : UInt8 :=
  ((0xFF00 : UInt32) >>> UInt32.ofNat copyBits).toUInt8 >>> UInt8.ofNat dstBitOffset

/-- `src_data`. -/
def srcData (src : UInt8) (srcBitOffset dstBitOffset : Nat) : UInt8 :=
  ((src.toUInt32 <<< UInt32.ofNat srcBitOffset) >>> UInt32.ofNat dstBitOffset).toUInt8

/-- The byte of the destination after a step. -/
def mergeByte (src dst : UInt8) (srcBitOffset dstBitOffset copyBits : Nat) : UInt8 :=
  (dst &&& ~~~(writeMask copyBits dstBitOffset)) |||
    (srcData src srcBitOffset dstBitOffset &&& writeMask copyBits dstBitOffset)

/-- The loop of `copyBitArray`. -/
def copyLoop (src : List UInt8) (lastBit : Nat) :
    Nat → List UInt8 → Nat → Nat → Call (List UInt8)
  | 0, _, _, _ => .error .hang
  | fuel + 1, dst, srcOffset, dstOffset =>
      if lastBit - srcOffset = 0 then .ok dst
      else
        let srcBitOffset := srcOffset % 8
        let dstBitOffset := dstOffset % 8
        let maxOffset := max srcBitOffset dstBitOffset
        let copyBits := min (lastBit - srcOffset) (8 - maxOffset)
        match src[srcOffset / 8]?, dst[dstOffset / 8]? with
        | some s, some d =>
            copyLoop src lastBit fuel
              (dst.set (dstOffset / 8) (mergeByte s d srcBitOffset dstBitOffset copyBits))
              (srcOffset + copyBits) (dstOffset + copyBits)
        | _, _ => .error .bounds

/-- `copyBitArray`. -/
def copyBitArray (src : List UInt8) (srcOffset srcLen : Nat) (dst : List UInt8)
    (dstOffset : Nat) : Call (List UInt8) := do
  Call.assert (0 < srcLen)
  let copied ← copyLoop (src.drop (srcOffset / 8)) (srcOffset % 8 + srcLen) (srcLen + 1)
    (dst.drop (dstOffset / 8)) (srcOffset % 8) (dstOffset % 8)
  return dst.take (dstOffset / 8) ++ copied

/-! ## A step -/

section Step

variable {s d : UInt8} {so o n j : Nat}

/-- The mask has ones in the places that are written. -/
theorem testBit_writeMask (hn : n ≤ 8) (ho : o < 8) (hj : j < 8) :
    (writeMask n o).toNat.testBit (7 - j) = decide (o ≤ j ∧ j < o + n) ∧
    (~~~(writeMask n o)).toNat.testBit (7 - j) = !decide (o ≤ j ∧ j < o + n) := by
  have hall : ∀ (n : Fin 9) (o j : Fin 8),
      (writeMask n.val o.val).toNat.testBit (7 - j.val) =
        decide (o.val ≤ j.val ∧ j.val < o.val + n.val) ∧
      (~~~(writeMask n.val o.val)).toNat.testBit (7 - j.val) =
        !decide (o.val ≤ j.val ∧ j.val < o.val + n.val) := by
    decide +kernel
  exact hall ⟨n, Nat.lt_succ_of_le hn⟩ ⟨o, ho⟩ ⟨j, hj⟩

/-- The bits of the source move to the places that are written. -/
theorem testBit_srcData (hso : so < 8) (ho : o ≤ j) (hj : so + (j - o) < 8) (hj' : j < 8) :
    (srcData s so o).toNat.testBit (7 - j) = s.toNat.testBit (7 - (so + (j - o))) := by
  have hshift : ∀ {x : Nat}, x < 8 → (UInt32.ofNat x).toNat % 32 = x := by
    intro x hx
    rw [UInt32.toNat_ofNat_of_lt' (show x < 2 ^ 32 by omega)]
    omega
  have hbyte : s.toNat < 2 ^ 8 := s.toNat_lt
  have hsmall : s.toNat <<< so < 2 ^ 32 := by
    rw [Nat.shiftLeft_eq]
    calc s.toNat * 2 ^ so < 2 ^ 8 * 2 ^ so := Nat.mul_lt_mul_of_pos_right hbyte (Nat.two_pow_pos so)
      _ ≤ 2 ^ 8 * 2 ^ 8 := Nat.mul_le_mul_left _ (Nat.pow_le_pow_right (by decide) hso.le)
      _ ≤ 2 ^ 32 := by decide
  rw [srcData, UInt32.toNat_toUInt8, UInt32.toNat_shiftRight, UInt32.toNat_shiftLeft,
    UInt8.toNat_toUInt32, hshift hso, hshift (show o < 8 by omega), Nat.mod_eq_of_lt hsmall,
    Nat.testBit_mod_two_pow, decide_eq_true (by omega), Bool.true_and, Nat.testBit_shiftRight,
    Nat.testBit_shiftLeft, decide_eq_true (by omega), Bool.true_and]
  congr 1
  omega

/-- A step replaces `n` bits of the byte. -/
theorem mergeByte_spec (hn : so + n ≤ 8) (ho : o + n ≤ 8) (hpos : 0 < n) (hj : j < 8) :
    (mergeByte s d so o n).toNat.testBit (7 - j) =
      if o ≤ j ∧ j < o + n then s.toNat.testBit (7 - (so + (j - o)))
      else d.toNat.testBit (7 - j) := by
  obtain ⟨hmask, hkeep⟩ := testBit_writeMask (n := n) (o := o) (by omega) (by omega) hj
  rw [mergeByte, UInt8.toNat_or, UInt8.toNat_and, UInt8.toNat_and, Nat.testBit_or,
    Nat.testBit_and, Nat.testBit_and, hmask, hkeep]
  by_cases hin : o ≤ j ∧ j < o + n
  · rw [if_pos hin, decide_eq_true hin, testBit_srcData (by omega) hin.1 (by omega) hj]
    simp
  · rw [if_neg hin, decide_eq_false hin]
    simp

end Step

/-! ## The loop -/

section Loop

variable {src dst r : List UInt8} {lastBit fuel so o n : Nat}

/-- A step inside one byte on both sides copies a run. -/
theorem set_mergeByte {s d : UInt8} (hs : src[so / 8]? = some s) (hd : dst[o / 8]? = some d)
    (hn : so % 8 + n ≤ 8) (ho : o % 8 + n ≤ 8) (hpos : 0 < n) :
    dst.set (o / 8) (mergeByte s d (so % 8) (o % 8) n) = copyRun src so n dst o := by
  obtain ⟨hlen, hd⟩ := List.getElem?_eq_some_iff.mp hd
  refine ext_bitAt (by rw [List.length_set, length_copyRun]) fun k hk => ?_
  rw [List.length_set] at hk
  rw [bitAt_set hlen, bitAt_copyRun hk]
  by_cases hbyte : k / 8 = o / 8
  · rw [if_pos hbyte, mergeByte_spec hn ho hpos (Nat.mod_lt k (by decide))]
    by_cases hin : o ≤ k ∧ k < o + n
    · have hdiv : (so + (k - o)) / 8 = so / 8 := by omega
      have hmod : (so + (k - o)) % 8 = so % 8 + (k % 8 - o % 8) := by omega
      rw [if_pos hin, if_pos (by omega), bitAt, hdiv, hmod, List.getD_eq_getElem?_getD, hs,
        Option.getD_some]
    · rw [if_neg hin, if_neg (by omega), bitAt, hbyte, List.getD_eq_getElem _ _ hlen, hd]
  · rw [if_neg hbyte, if_neg (by omega)]

/-- The loop copies what is left, if source and destination go so far. -/
theorem copyLoop_eq_ok (hfuel : lastBit - so < fuel) : copyLoop src lastBit fuel dst so o = .ok r ↔
    (so < lastBit → lastBit ≤ 8 * src.length ∧ o + (lastBit - so) ≤ 8 * dst.length) ∧
      r = copyRun src so (lastBit - so) dst o := by
  induction fuel generalizing dst so o with
  | zero => exact absurd hfuel (Nat.not_lt_zero _)
  | succ fuel ih =>
      rw [copyLoop]
      by_cases hdone : lastBit - so = 0
      · have hge : ¬so < lastBit := by omega
        rw [if_pos hdone, hdone, copyRun_zero]
        refine ⟨fun h => ?_, fun h => ?_⟩
        · cases h
          exact ⟨fun hlt => absurd hlt hge, rfl⟩
        · rw [h.2]
      have hlt : so < lastBit := by omega
      simp only [if_neg hdone, hlt, true_imp_iff]
      generalize hn : min (lastBit - so) (8 - max (so % 8) (o % 8)) = n
      have hpos : 0 < n := by omega
      cases hs : src[so / 8]? with
      | none =>
          have hend := List.getElem?_eq_none_iff.mp hs
          refine ⟨fun h => ?_, fun h => ?_⟩
          · cases h
          · omega
      | some s =>
      cases hd : dst[o / 8]? with
      | none =>
          have hend := List.getElem?_eq_none_iff.mp hd
          refine ⟨fun h => ?_, fun h => ?_⟩
          · cases h
          · omega
      | some d =>
          have hslen := (List.getElem?_eq_some_iff.mp hs).1
          have hdlen := (List.getElem?_eq_some_iff.mp hd).1
          have hrest : lastBit - so = n + (lastBit - (so + n)) := by omega
          dsimp only
          rw [set_mergeByte hs hd (by omega) (by omega) hpos, ih (by omega), copyRun_append,
            ← hrest, length_copyRun]
          refine and_congr_left fun _ => ⟨fun h => ?_, fun h hmore => ?_⟩
          · rcases Nat.lt_or_ge (so + n) lastBit with hmore | hlast
            · have hbounds := h hmore
              omega
            · omega
          · omega

/-- The copy returns iff there is something to copy and both arrays are long
enough, and it copies these bits and no others. -/
theorem copyBitArray_eq_ok : copyBitArray src so n dst o = .ok r ↔
    0 < n ∧ so + n ≤ 8 * src.length ∧ o + n ≤ 8 * dst.length ∧ r = copyRun src so n dst o := by
  rw [copyBitArray]
  by_cases hpos : 0 < n
  · have hsub : so % 8 + n - so % 8 = n := Nat.add_sub_cancel_left ..
    have hmore : so % 8 < so % 8 + n := Nat.lt_add_of_pos_right hpos
    have hloop : ∀ copied, copyLoop (src.drop (so / 8)) (so % 8 + n) (n + 1) (dst.drop (o / 8))
        (so % 8) (o % 8) = .ok copied ↔ (so + n ≤ 8 * src.length ∧ o + n ≤ 8 * dst.length) ∧
          copied = copyRun (src.drop (so / 8)) (so % 8) n (dst.drop (o / 8)) (o % 8) := by
      intro copied
      rw [copyLoop_eq_ok (by rw [hsub]; exact Nat.lt_succ_self n), hsub, List.length_drop,
        List.length_drop]
      refine and_congr_left fun _ => ⟨fun h => ?_, fun h _ => ?_⟩
      · have hbounds := h hmore
        omega
      · omega
    have hcopied : o + n ≤ 8 * dst.length →
        dst.take (o / 8) ++ copyRun (src.drop (so / 8)) (so % 8) n (dst.drop (o / 8)) (o % 8) =
          copyRun src so n dst o := by
      intro hlen
      rw [copyRun_drop (by omega), Nat.div_add_mod, Nat.div_add_mod]
    rw [Call.assert_of_true hpos, Call.ok_bind, Call.bind_eq_ok]
    refine ⟨?_, ?_⟩
    · rintro ⟨copied, hrun, hr⟩
      obtain ⟨⟨hsrc, hdst⟩, rfl⟩ := (hloop copied).mp hrun
      refine ⟨hpos, hsrc, hdst, ?_⟩
      rw [← hcopied hdst]
      exact (Call.pure_eq_ok.mp hr).symm
    · rintro ⟨-, hsrc, hdst, rfl⟩
      exact ⟨_, (hloop _).mpr ⟨⟨hsrc, hdst⟩, rfl⟩, Call.pure_eq_ok.mpr (hcopied hdst)⟩
  · rw [Call.assert_of_false hpos]
    refine ⟨fun h => ?_, fun h => absurd h.1 hpos⟩
    cases h

end Loop

end UavcanAdapter
