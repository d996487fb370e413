/-
# `Canard.Scalar` — numbers in a payload

A number of 1 to 64 bits lies in a payload with its bytes from the lowest on
and, within each byte, with the most significant bit first; the bits of the
last byte that is not full are its highest ones.  `fieldPlace` says where each
bit lies, and it is its own inverse.

`Scalar.canardEncodeScalar` and `Scalar.canardDecodeScalar` are the functions
of the library on their own data: a buffer with an end, a scattered transfer,
a union that is read in the byte order of the machine, and signs.  The
functions of `Node.Canard` are what they come to for a payload in one piece
(`canardEncodeScalar_eq_ok`, `canardDecodeScalar_eq`), on machines of either
byte order.
-/
import UavcanAdapter.Canard.Delivery
import UavcanAdapter.Canard.Descatter

namespace UavcanAdapter

open Base

namespace Scalar

/-- The loop of `swapByteOrder`. -/
def swapLoop : Nat → List UInt8 → Nat → Nat → List UInt8
  | 0, bytes, _, _ => bytes
  | fuel + 1, bytes, fwd, rev =>
      if fwd < rev then
        let x := bytes.getD fwd 0
        swapLoop fuel ((bytes.set fwd (bytes.getD rev 0)).set rev x) (fwd + 1) (rev - 1)
      else bytes

/-- `swapByteOrder`. -/
def swapByteOrder (data : List UInt8) (size : Nat) : List UInt8 := swapLoop size data 0 (size - 1)

/-- `std_byte_length`. -/
def stdByteLength (bitLength : Nat) : Nat :=
  if bitLength = 1 then 1
  else if bitLength ≤ 8 then 1
  else if bitLength ≤ 16 then 2
  else if bitLength ≤ 32 then 4
  else 8

/-- The bytes in the order of the machine, which is that of `isBigEndian`. -/
def native (isBigEndian : Bool) (bytes : List UInt8) : List UInt8 :=
  if isBigEndian then bytes.reverse else bytes

/-- All bits above the sign bit are set if it is. -/
def extendSign {w : Nat} (bitLength : Nat) (x : BitVec w) : BitVec w :=
  if x &&& (1#w <<< (bitLength - 1)) ≠ 0#w then x ||| ~~~((1#w <<< bitLength) - 1#w) else x

/-- `*out_value`, from the union. -/
def outValue (isBigEndian : Bool) (storage : List UInt8) (bitLength : Nat) (valueIsSigned : Bool) :
    Int :=
  let stdBitLength := 8 * stdByteLength bitLength
  let x := BitVec.ofNat stdBitLength
    (leNat (native isBigEndian (storage.take (stdByteLength bitLength))))
  if valueIsSigned then
    (if stdBitLength ≠ bitLength then extendSign bitLength x else x).toInt
  else x.toNat

/-- `canardDecodeScalar`: its result, and what it writes to `out_value`. -/
def canardDecodeScalar (isBigEndian : Bool) (transfer : ScatteredRxTransfer)
    (bitOffset bitLength : Nat) (valueIsSigned : Bool) : Call (Int × Option Int) :=
  if bitLength < 1 ∨ bitLength > 64 then .ok (-canardErrorInvalidArgument, none)
  else if bitLength = 1 ∧ valueIsSigned then .ok (-canardErrorInvalidArgument, none)
  else do
    let (result, storage) ←
      descatterTransferPayload transfer bitOffset bitLength (List.replicate 8 0)
    if result = 0 then return (0, none)
    else
      Call.assert (result ≤ 64 ∧ result ≤ bitLength)
      let storage := if bitLength % 8 ≠ 0 then
          storage.modify (bitLength / 8) (· >>> UInt8.ofNat (8 - bitLength % 8))
        else storage
      let storage :=
        if isBigEndian then swapByteOrder storage (stdByteLength bitLength) else storage
      return (result, some (outValue isBigEndian storage bitLength valueIsSigned))

/-- `canardEncodeScalar`, with the number at `value`, which a `bool` stores as
one or zero. -/
def canardEncodeScalar (isBigEndian : Bool) (destination : List UInt8)
    (bitOffset bitLength value : Nat) : Call (List UInt8) := do
  Call.assert (bitLength ≤ 64)
  Call.assert (1 ≤ bitLength)
  let value := if bitLength = 1 then (decide (value ≠ 0)).toNat else value
  let storage := native isBigEndian (leBytes (stdByteLength bitLength) value) ++
    List.replicate (8 - stdByteLength bitLength) 0
  let storage := if isBigEndian then swapByteOrder storage (stdByteLength bitLength) else storage
  let storage := if bitLength % 8 ≠ 0 then
      storage.modify (bitLength / 8) (· <<< UInt8.ofNat (8 - bitLength % 8))
    else storage
  copyBitArray storage 0 bitLength destination bitOffset

/-! ## Where the bits lie -/

/-- The place of bit `i`, counted from the lowest, in a field of `n` bits. -/
def fieldPlace (n i : Nat) : Nat :=
  if i / 8 < n / 8 then 8 * (i / 8) + (7 - i % 8) else 8 * (i / 8) + (n % 8 - 1 - i % 8)

section FieldPlace

variable {n i : Nat}

theorem fieldPlace_lt (h : i < n) : fieldPlace n i < n := by
  rw [fieldPlace]
  split <;> omega

/-- The bit at a place has the place of the bit. -/
theorem fieldPlace_fieldPlace (h : i < n) : fieldPlace n (fieldPlace n i) = i := by
  rw [fieldPlace, fieldPlace]
  split <;> split <;> omega

end FieldPlace

section Shift

variable {b : UInt8} {storage : List UInt8} {m n i j k : Nat}

theorem testBit_shiftRight (hk : k < 8) :
    (b >>> UInt8.ofNat k).toNat.testBit j = b.toNat.testBit (k + j) := by
  have hmod : (UInt8.ofNat k).toNat % 8 = k := by
    rw [UInt8.toNat_ofNat_of_lt' (show k < 2 ^ 8 by omega), Nat.mod_eq_of_lt hk]
  rw [UInt8.toNat_shiftRight, hmod, Nat.testBit_shiftRight]

theorem testBit_shiftLeft (hk : k < 8) (hj : j < 8) :
    (b <<< UInt8.ofNat k).toNat.testBit j = (decide (k ≤ j) && b.toNat.testBit (j - k)) := by
  have hmod : (UInt8.ofNat k).toNat % 8 = k := by
    rw [UInt8.toNat_ofNat_of_lt' (show k < 2 ^ 8 by omega), Nat.mod_eq_of_lt hk]
  rw [UInt8.toNat_shiftLeft, hmod, Nat.testBit_mod_two_pow, decide_eq_true hj, Bool.true_and,
    Nat.testBit_shiftLeft]

theorem getD_modify {f : UInt8 → UInt8} (hf : f 0 = 0) :
    (storage.modify k f).getD i 0 = if i = k then f (storage.getD i 0) else storage.getD i 0 := by
  rw [List.getD_eq_getElem?_getD, List.getD_eq_getElem?_getD, List.getElem?_modify]
  cases storage[i]? with
  | none => simp [hf]
  | some b => simp [eq_comm]

/-- The number in a storage that holds `m` of the `n` bits of a field. -/
theorem testBit_shifted {f : Nat → Bool} (hm : m ≤ n)
    (hbits : ∀ k, bitAt storage k = (decide (k < m) && f k)) :
    (leNat (if n % 8 ≠ 0 then storage.modify (n / 8) (· >>> UInt8.ofNat (8 - n % 8))
      else storage)).testBit i =
      (decide (i < n) && (decide (fieldPlace n i < m) && f (fieldPlace n i))) := by
  have hzero : ∀ k, m ≤ k → bitAt storage k = false := by
    intro k hk
    rw [hbits, decide_eq_false (by omega), Bool.false_and]
  have hmod : i % 8 < 8 := Nat.mod_lt i (by decide)
  rw [testBit_leNat, ← hbits]
  by_cases hr : n % 8 = 0
  · rw [if_neg (not_not.mpr hr), testBit_getD _ _ hmod]
    by_cases hi : i < n
    · rw [decide_eq_true hi, Bool.true_and, fieldPlace, if_pos (by omega)]
    · rw [decide_eq_false hi, Bool.false_and, hzero _ (by omega)]
  · rw [if_pos hr, getD_modify (by simp)]
    by_cases hlast : i / 8 = n / 8
    · rw [if_pos hlast, testBit_shiftRight (by omega)]
      by_cases hi : i < n
      · rw [testBit_getD _ _ (by omega), decide_eq_true hi, Bool.true_and, fieldPlace,
          if_neg (by omega)]
        congr 1
        omega
      · rw [decide_eq_false hi, Bool.false_and]
        refine Nat.testBit_lt_two_pow ?_
        exact lt_of_lt_of_le (storage.getD (i / 8) 0).toNat_lt
          (Nat.pow_le_pow_right (by decide) (by omega))
    · rw [if_neg hlast, testBit_getD _ _ hmod]
      by_cases hi : i < n
      · rw [decide_eq_true hi, Bool.true_and, fieldPlace, if_pos (by omega)]
      · rw [decide_eq_false hi, Bool.false_and, hzero _ (by omega)]

/-- The bits of a number that has been moved to the top of its field. -/
theorem bitAt_shifted {v : Nat} (hbits : ∀ i < n, (storage.getD (i / 8) 0).toNat.testBit (i % 8) =
    v.testBit i) (hj : j < n) :
    bitAt (if n % 8 ≠ 0 then storage.modify (n / 8) (· <<< UInt8.ofNat (8 - n % 8))
      else storage) j = v.testBit (fieldPlace n j) := by
  have hmod : j % 8 < 8 := Nat.mod_lt j (by decide)
  have hplace := fieldPlace_lt hj
  rw [← hbits _ hplace, bitAt]
  by_cases hr : n % 8 = 0
  · have hdiv : fieldPlace n j / 8 = j / 8 ∧ fieldPlace n j % 8 = 7 - j % 8 := by
      rw [fieldPlace, if_pos (by omega)]
      omega
    rw [if_neg (not_not.mpr hr), hdiv.1, hdiv.2]
  · rw [if_pos hr, getD_modify (by simp)]
    by_cases hlast : j / 8 = n / 8
    · have hdiv : fieldPlace n j / 8 = j / 8 ∧ fieldPlace n j % 8 = n % 8 - 1 - j % 8 := by
        rw [fieldPlace, if_neg (by omega)]
        omega
      rw [if_pos hlast, testBit_shiftLeft (by omega) (by omega), decide_eq_true (by omega),
        Bool.true_and, hdiv.1, hdiv.2]
      congr 1
      omega
    · have hdiv : fieldPlace n j / 8 = j / 8 ∧ fieldPlace n j % 8 = 7 - j % 8 := by
        rw [fieldPlace, if_pos (by omega)]
        omega
      rw [if_neg hlast, hdiv.1, hdiv.2]

end Shift

/-! ## Numbers in one piece -/

section OnePiece

variable {payload destination : List UInt8} {o n v i k : Nat}

theorem bitAt_of_le (h : 8 * payload.length ≤ k) : bitAt payload k = false := by
  rw [bitAt, List.getD_eq_default _ _ (by omega)]
  exact Nat.zero_testBit _

/-- The bits of a number that is read. -/
theorem testBit_canardDecodeScalar (h : UavcanAdapter.canardDecodeScalar payload o n = some v) :
    v.testBit i = (decide (i < n) && bitAt payload (o + fieldPlace n i)) := by
  rw [UavcanAdapter.canardDecodeScalar] at h
  by_cases hbehind : o ≥ payload.length * 8
  · rw [if_pos hbehind] at h
    cases h
  · rw [if_neg hbehind] at h
    have hbits := testBit_shifted (i := i) (n := n) (Nat.min_le_left n (payload.length * 8 - o))
      fun k => bitAt_readBits payload o (min n (payload.length * 8 - o)) k
    rw [← Option.some.inj h, hbits]
    by_cases hi : i < n
    · have hplace := fieldPlace_lt hi
      rw [decide_eq_true hi, Bool.true_and, Bool.true_and]
      by_cases hin : fieldPlace n i < min n (payload.length * 8 - o)
      · rw [decide_eq_true hin, Bool.true_and]
      · rw [decide_eq_false hin, Bool.false_and, bitAt_of_le (by omega)]
    · rw [decide_eq_false hi, Bool.false_and, Bool.false_and]

/-- The bits of a buffer to which a number is written. -/
theorem bitAt_canardEncodeScalar (hn : n ≤ 64) (hk : k < 8 * destination.length) :
    bitAt (UavcanAdapter.canardEncodeScalar destination o n v) k =
      if o ≤ k ∧ k < o + n then v.testBit (fieldPlace n (k - o)) else bitAt destination k := by
  have hbits : ∀ i < n, ((leBytes 8 v).getD (i / 8) 0).toNat.testBit (i % 8) = v.testBit i := by
    intro i hi
    rw [← testBit_leNat, leNat_leBytes, show 256 ^ 8 = 2 ^ 64 from rfl, Nat.testBit_mod_two_pow,
      decide_eq_true (by omega), Bool.true_and]
  rw [UavcanAdapter.canardEncodeScalar, bitAt_writeBits hk]
  split
  · exact bitAt_shifted hbits (by omega)
  · rfl

end OnePiece

/-! ## The library's own functions -/

theorem stdByteLength_cases (n : Nat) : stdByteLength n = 1 ∨ stdByteLength n = 2 ∨
    stdByteLength n = 4 ∨ stdByteLength n = 8 := by
  rw [stdByteLength]
  split_ifs <;> simp

theorem le_stdByteLength {n : Nat} (h : n ≤ 64) : n ≤ 8 * stdByteLength n := by
  rw [stdByteLength]
  split_ifs <;> omega

/-- Swapping from both ends turns the middle around. -/
theorem swapLoop_eq {fuel : Nat} {a m c : List UInt8} (h : m.length ≤ fuel) :
    swapLoop fuel (a ++ (m ++ c)) a.length (a.length + m.length - 1) = a ++ (m.reverse ++ c) := by
  induction fuel generalizing a m c with
  | zero =>
      rw [List.length_eq_zero_iff.mp (Nat.le_zero.mp h)]
      rfl
  | succ fuel ih =>
      rw [swapLoop]
      cases m with
      | nil => rw [if_neg (by rw [List.length_nil]; omega), List.reverse_nil]
      | cons x m =>
      rcases List.eq_nil_or_concat m with rfl | ⟨m, y, rfl⟩
      · rw [if_neg (by rw [List.length_singleton]; omega), List.reverse_singleton]
      · have hlen : (x :: m.concat y).length = m.length + 2 := by
          rw [List.concat_eq_append, List.length_cons, List.length_append, List.length_singleton]
        have hlist : a ++ (x :: m.concat y ++ c) = a ++ x :: (m ++ y :: c) := by simp
        have hrev : a.length + (m.length + 2) - 1 = (a ++ x :: m).length := by
          rw [List.length_append, List.length_cons]
          omega
        have hlast : (a ++ x :: (m ++ y :: c)).getD (a.length + (m.length + 2) - 1) 0 = y := by
          rw [hrev, show a ++ x :: (m ++ y :: c) = (a ++ x :: m) ++ y :: c by simp,
            List.getD_append_right _ _ _ _ le_rfl, Nat.sub_self]
          rfl
        have hfirst : (a ++ x :: (m ++ y :: c)).getD a.length 0 = x := by
          rw [List.getD_append_right _ _ _ _ le_rfl, Nat.sub_self]
          rfl
        have hset :
            ((a ++ x :: (m ++ y :: c)).set a.length y).set (a.length + (m.length + 2) - 1) x =
              (a ++ [y]) ++ (m ++ x :: c) := by
          rw [List.set_append_right _ _ le_rfl, Nat.sub_self, List.set_cons_zero, hrev,
            show a ++ y :: (m ++ y :: c) = (a ++ y :: m) ++ y :: c by simp,
            show (a ++ x :: m).length = (a ++ y :: m).length by simp,
            List.set_append_right _ _ le_rfl, Nat.sub_self, List.set_cons_zero]
          simp
        have hnext : a.length + (m.length + 2) - 1 - 1 = (a ++ [y]).length + m.length - 1 := by
          rw [List.length_append, List.length_singleton]
          omega
        have hturned := ih (a := a ++ [y]) (m := m) (c := x :: c) (by omega)
        rw [hlen, if_pos (by omega), hlist, hlast, hfirst]
        dsimp only
        rw [hset, hnext]
        rw [List.length_append, List.length_singleton] at hturned ⊢
        rw [hturned]
        simp

/-- The bytes up to the size change their order. -/
theorem swapByteOrder_eq {storage : List UInt8} {size : Nat} (h : size ≤ storage.length) :
    swapByteOrder storage size = (storage.take size).reverse ++ storage.drop size := by
  have hlen : (storage.take size).length = size := List.length_take_of_le h
  have hturned := swapLoop_eq (a := []) (c := storage.drop size) hlen.le
  rwa [hlen, List.length_nil, Nat.zero_add, List.nil_append, List.nil_append,
    List.take_append_drop] at hturned

/-- Whatever the machine, a number is read from its bytes from the lowest on. -/
theorem native_swapped {storage : List UInt8} {size : Nat} (h : size ≤ storage.length)
    (isBigEndian : Bool) :
    native isBigEndian
      ((if isBigEndian then swapByteOrder storage size else storage).take size) =
        storage.take size := by
  cases isBigEndian with
  | false => rfl
  | true =>
      have hlen : (storage.take size).reverse.length = size := by
        rw [List.length_reverse, List.length_take_of_le h]
      rw [if_pos rfl, swapByteOrder_eq h, native, if_pos rfl, List.take_append_of_le_length hlen.ge,
        List.take_of_length_le hlen.le, List.reverse_reverse]

/-- A number is stored with its bytes from the lowest on. -/
theorem swapped_native (bytes rest : List UInt8) (isBigEndian : Bool) :
    (if isBigEndian then swapByteOrder (native isBigEndian bytes ++ rest) bytes.length
      else native isBigEndian bytes ++ rest) = bytes ++ rest := by
  cases isBigEndian with
  | false => rfl
  | true =>
      have hlen : bytes.reverse.length = bytes.length := List.length_reverse
      rw [if_pos rfl, swapByteOrder_eq (by rw [native, if_pos rfl, List.length_append]; omega),
        native, if_pos rfl, ← hlen, List.take_left, List.drop_left, List.reverse_reverse]

/-- The number with all bits above its sign bit filled is the same number. -/
theorem toInt_extendSign {w n v : Nat} (hpos : 0 < n) (hle : n ≤ w) (hv : v < 2 ^ n) :
    (if w ≠ n then extendSign n (BitVec.ofNat w v) else BitVec.ofNat w v).toInt =
      (BitVec.ofNat n v).toInt := by
  by_cases hw : w = n
  · rw [if_neg (not_not.mpr hw), hw]
  rw [if_pos hw, ← BitVec.toInt_signExtend_of_le hle]
  congr 1
  have hlt : n < w := lt_of_le_of_ne hle (Ne.symm hw)
  have hhigh : ∀ i, n ≤ i → v.testBit i = false := fun i hi =>
    Nat.testBit_lt_two_pow (hv.trans_le (Nat.pow_le_pow_right (by decide) hi))
  have hones : ∀ i < w, (~~~((1#w <<< n) - 1#w)).getLsbD i = decide (n ≤ i) := by
    intro i hi
    have hsub : ((1#w <<< n) - 1#w).toNat = 2 ^ n - 1 := by
      have hpow : 2 ^ n < 2 ^ w := Nat.pow_lt_pow_right (by decide) hlt
      have hone : 1 < 2 ^ w := Nat.one_lt_two_pow (by omega)
      rw [BitVec.toNat_sub_of_le, BitVec.toNat_shiftLeft, BitVec.toNat_ofNat,
        Nat.mod_eq_of_lt hone, Nat.one_shiftLeft, Nat.mod_eq_of_lt hpow]
      rw [BitVec.le_def, BitVec.toNat_shiftLeft, BitVec.toNat_ofNat, Nat.mod_eq_of_lt hone,
        Nat.one_shiftLeft, Nat.mod_eq_of_lt hpow]
      exact Nat.one_le_two_pow
    rw [BitVec.getLsbD_not, decide_eq_true hi, Bool.true_and, BitVec.getLsbD, hsub,
      Nat.testBit_two_pow_sub_one]
    by_cases hn : n ≤ i
    · rw [decide_eq_true hn, decide_eq_false (by omega)]
      rfl
    · rw [decide_eq_false hn, decide_eq_true (by omega)]
      rfl
  have hsign : BitVec.ofNat w v &&& (1#w <<< (n - 1)) ≠ 0#w ↔ v.testBit (n - 1) = true := by
    rw [← BitVec.twoPow_eq, BitVec.and_twoPow, BitVec.getLsbD_ofNat, decide_eq_true (by omega),
      Bool.true_and]
    cases v.testBit (n - 1) with
    | false => simp
    | true =>
        have hne : BitVec.twoPow w (n - 1) ≠ 0#w := by
          intro hzero
          have hbit := BitVec.getLsbD_twoPow (w := w) (n - 1) (n - 1)
          rw [hzero, BitVec.getLsbD_zero] at hbit
          simp at hbit
          omega
        simpa using hne
  refine BitVec.eq_of_getLsbD_eq fun i hi => ?_
  rw [BitVec.getLsbD_signExtend, decide_eq_true hi, Bool.true_and, BitVec.msb_eq_getLsbD_last,
    BitVec.getLsbD_ofNat, BitVec.getLsbD_ofNat, decide_eq_true (show n - 1 < n by omega),
    Bool.true_and, extendSign]
  by_cases hs : v.testBit (n - 1) = true
  · rw [if_pos (hsign.mpr hs), BitVec.getLsbD_or, hones i hi, BitVec.getLsbD_ofNat,
      decide_eq_true hi, Bool.true_and, hs]
    by_cases hn : i < n
    · rw [if_pos hn, decide_eq_true hn, decide_eq_false (by omega), Bool.true_and, Bool.or_false]
    · rw [if_neg hn, decide_eq_true (by omega), Bool.or_true]
  · rw [if_neg fun hcon => hs (hsign.mp hcon), BitVec.getLsbD_ofNat, decide_eq_true hi,
      Bool.true_and, Bool.eq_false_iff.mpr hs]
    by_cases hn : i < n
    · rw [if_pos hn, decide_eq_true hn, Bool.true_and]
    · rw [if_neg hn, hhigh i (by omega)]

section Functions

variable {transfer : ScatteredRxTransfer} {destination r : List UInt8} {o n v : Nat}

/-- A number of `bitLength` bits as the application asks for it. -/
def readAs (bitLength : Nat) (valueIsSigned : Bool) (v : Nat) : Int :=
  if valueIsSigned then (BitVec.ofNat bitLength v).toInt else v

theorem canardDecodeScalar_lt {payload : List UInt8}
    (h : UavcanAdapter.canardDecodeScalar payload o n = some v) : v < 2 ^ n := by
  refine Nat.lt_pow_two_of_testBit v fun i hi => ?_
  rw [testBit_canardDecodeScalar h, decide_eq_false (by omega), Bool.false_and]

/-- The number that comes out of the union. -/
theorem outValue_eq {storage : List UInt8} (isBigEndian valueIsSigned : Bool) (hpos : 1 ≤ n)
    (hle : n ≤ 64) (hlen : storage.length = 8) (hv : v < 2 ^ n)
    (hbits : ∀ i, (leNat storage).testBit i = v.testBit i) :
    outValue isBigEndian
      (if isBigEndian then swapByteOrder storage (stdByteLength n) else storage) n valueIsSigned =
        readAs n valueIsSigned v := by
  have hstd : stdByteLength n ≤ storage.length := by
    have hcases := stdByteLength_cases n
    omega
  have hwide : n ≤ 8 * stdByteLength n := le_stdByteLength hle
  have hnat : leNat (storage.take (stdByteLength n)) = v := by
    refine Nat.eq_of_testBit_eq fun i => ?_
    rw [testBit_leNat, List.getD_eq_getElem?_getD, List.getElem?_take, ← hbits, testBit_leNat,
      List.getD_eq_getElem?_getD]
    split
    · rfl
    · rename_i hbehind
      rw [← List.getD_eq_getElem?_getD, ← testBit_leNat, hbits]
      rw [Nat.testBit_lt_two_pow (hv.trans_le (Nat.pow_le_pow_right (by decide) (by omega)))]
      exact Nat.zero_testBit _
  have hsmall : v < 2 ^ (8 * stdByteLength n) :=
    hv.trans_le (Nat.pow_le_pow_right (by decide) hwide)
  rw [outValue, native_swapped hstd, hnat, readAs]
  cases valueIsSigned with
  | false => simp [Nat.mod_eq_of_lt hsmall]
  | true => exact toInt_extendSign hpos hwide hv

/-- Decoding never fails on what a transfer says it has, and on a machine of
either byte order the number is the one in the payload in one piece. -/
theorem canardDecodeScalar_eq (h : transfer.WellFormed) (isBigEndian : Bool)
    {valueIsSigned : Bool} (hpos : 1 ≤ n) (hle : n ≤ 64)
    (hsigned : n = 1 → valueIsSigned = false) :
    canardDecodeScalar isBigEndian transfer o n valueIsSigned =
      .ok ((min n (8 * transfer.payload.length - o) : Nat),
        (UavcanAdapter.canardDecodeScalar transfer.payload o n).map
          (readAs n valueIsSigned)) := by
  have hbit : ¬(n = 1 ∧ valueIsSigned = true) := fun hcon => by
    rw [hsigned hcon.1] at hcon
    exact Bool.false_ne_true hcon.2
  rw [canardDecodeScalar, if_neg (by omega), if_neg hbit,
    descatterTransferPayload_eq h hpos hle (by rw [List.length_replicate]), Call.ok_bind]
  dsimp only
  by_cases hbehind : o ≥ transfer.payload.length * 8
  · have hzero : min n (8 * transfer.payload.length - o) = 0 := by omega
    rw [hzero, if_pos rfl, UavcanAdapter.canardDecodeScalar, if_pos hbehind]
    rfl
  generalize hm : min n (8 * transfer.payload.length - o) = m
  rw [if_neg (show m ≠ 0 by omega), Call.assert_of_true (show m ≤ 64 ∧ m ≤ n by omega),
    Call.ok_bind]
  obtain ⟨v, hv⟩ : ∃ v, UavcanAdapter.canardDecodeScalar transfer.payload o n = some v := by
    rw [UavcanAdapter.canardDecodeScalar, if_neg hbehind]
    exact ⟨_, rfl⟩
  have hstorage : ∀ k, bitAt (copyRun transfer.payload o m (List.replicate 8 0) 0) k =
      (decide (k < m) && bitAt transfer.payload (o + k)) := by
    intro k
    have hlen : (List.replicate 8 (0 : UInt8)).length = 8 := List.length_replicate
    rcases Nat.lt_or_ge k 64 with hk | hk
    · rw [bitAt_copyRun (by omega), Nat.zero_add, Nat.sub_zero]
      by_cases hin : k < m
      · rw [if_pos ⟨Nat.zero_le k, hin⟩, decide_eq_true hin, Bool.true_and]
      · rw [if_neg (fun hcon => hin hcon.2), decide_eq_false hin, Bool.false_and, bitAt,
          List.getD_eq_getElem _ _ (by omega), List.getElem_replicate]
        exact Nat.zero_testBit _
    · rw [bitAt_of_le (by rw [length_copyRun]; omega), decide_eq_false (by omega),
        Bool.false_and]
  rw [hv, Option.map_some, outValue_eq (v := v) isBigEndian valueIsSigned hpos hle ?_
    (canardDecodeScalar_lt hv) ?_]
  · rfl
  · split
    · rw [List.length_modify, length_copyRun, List.length_replicate]
    · rw [length_copyRun, List.length_replicate]
  · intro i
    rw [testBit_shifted (by omega) hstorage, testBit_canardDecodeScalar hv]
    by_cases hi : i < n
    · have hplace := fieldPlace_lt hi
      rw [decide_eq_true hi, Bool.true_and, Bool.true_and]
      by_cases hin : fieldPlace n i < m
      · rw [decide_eq_true hin, Bool.true_and]
      · rw [decide_eq_false hin, Bool.false_and, bitAt_of_le (by omega)]
    · rw [decide_eq_false hi, Bool.false_and, Bool.false_and]

/-- Encoding returns iff the field is inside the buffer, and on a machine of
either byte order the buffer is the same. -/
theorem canardEncodeScalar_eq_ok (isBigEndian : Bool) (hpos : 1 ≤ n) (hle : n ≤ 64)
    (hbool : n = 1 → v < 2) :
    canardEncodeScalar isBigEndian destination o n v = .ok r ↔
      o + n ≤ 8 * destination.length ∧ r = UavcanAdapter.canardEncodeScalar destination o n v := by
  have hvalue : (if n = 1 then (decide (v ≠ 0)).toNat else v) = v := by
    split
    · rename_i hone
      have hlt := hbool hone
      interval_cases v <;> rfl
    · rfl
  have hstd := stdByteLength_cases n
  have hwide := le_stdByteLength hle
  have hlen : (leBytes (stdByteLength n) v ++
      List.replicate (8 - stdByteLength n) (0 : UInt8)).length = 8 := by
    rw [List.length_append, length_leBytes, List.length_replicate]
    omega
  have hbits : ∀ i < n, ((leBytes (stdByteLength n) v ++
      List.replicate (8 - stdByteLength n) (0 : UInt8)).getD (i / 8) 0).toNat.testBit (i % 8) =
        v.testBit i := by
    intro i hi
    rw [List.getD_append _ _ _ _ (by rw [length_leBytes]; omega), ← testBit_leNat, leNat_leBytes,
      show (256 : Nat) = 2 ^ 8 from rfl, ← Nat.pow_mul, Nat.testBit_mod_two_pow,
      decide_eq_true (by omega), Bool.true_and]
  have hswap := swapped_native (leBytes (stdByteLength n) v)
    (List.replicate (8 - stdByteLength n) 0) isBigEndian
  rw [length_leBytes] at hswap
  rw [canardEncodeScalar, Call.assert_of_true hle, Call.ok_bind, Call.assert_of_true hpos,
    Call.ok_bind, hvalue]
  dsimp only
  rw [hswap, copyBitArray_eq_ok]
  generalize hstorage : leBytes (stdByteLength n) v ++
    List.replicate (8 - stdByteLength n) (0 : UInt8) = storage at hbits hlen ⊢
  have hsame : copyRun (if n % 8 ≠ 0 then
      storage.modify (n / 8) (· <<< UInt8.ofNat (8 - n % 8)) else storage) 0 n destination o =
        UavcanAdapter.canardEncodeScalar destination o n v := by
    refine ext_bitAt ?_ fun k hk => ?_
    · rw [length_copyRun, UavcanAdapter.canardEncodeScalar, length_writeBits]
    · rw [length_copyRun] at hk
      rw [bitAt_copyRun hk, bitAt_canardEncodeScalar hle hk]
      split
      · rw [Nat.zero_add, bitAt_shifted hbits (by omega)]
      · rfl
  rw [hsame]
  refine ⟨fun h => ⟨h.2.2.1, h.2.2.2⟩, fun h => ⟨hpos, ?_, h.1, h.2⟩⟩
  split
  · rw [List.length_modify]
    omega
  · omega

end Functions

/-! ## Several numbers in one buffer -/

/-- A number and its place in a buffer. -/
structure Field where
  bitOffset : Nat
  bitLength : Nat
  value : Nat
  bitLength_pos : 1 ≤ bitLength := by decide
  bitLength_le : bitLength ≤ 64 := by decide
  /-- one bit is stored from a `bool` -/
  value_lt : bitLength = 1 → value < 2 := by decide

namespace Field

/-- Bit `k` of the buffer belongs to the field. -/
def Covers (f : Field) (k : Nat) : Prop := f.bitOffset ≤ k ∧ k < f.bitOffset + f.bitLength

def Disjoint (f g : Field) : Prop :=
  f.bitOffset + f.bitLength ≤ g.bitOffset ∨ g.bitOffset + g.bitLength ≤ f.bitOffset

instance : DecidableRel Disjoint := fun _ _ => inferInstanceAs (Decidable (_ ∨ _))

instance {f : Field} : DecidablePred f.Covers := fun _ => inferInstanceAs (Decidable (_ ∧ _))

end Field

/-- One number after the other is encoded. -/
def encodeAll (isBigEndian : Bool) (fields : List Field) (destination : List UInt8) :
    Call (List UInt8) :=
  fields.foldlM (fun destination f =>
    canardEncodeScalar isBigEndian destination f.bitOffset f.bitLength f.value) destination

section Fields

variable {fields : List Field} {destination : List UInt8}

/-- Every field gets its bits, and the other bits stay as they are. -/
theorem encodeAll_spec (isBigEndian : Bool)
    (hfits : ∀ f ∈ fields, f.bitOffset + f.bitLength ≤ 8 * destination.length)
    (hdisjoint : fields.Pairwise Field.Disjoint) :
    ∃ buffer, encodeAll isBigEndian fields destination = .ok buffer ∧
      buffer.length = destination.length ∧
      (∀ f ∈ fields, ∀ j < f.bitLength,
        bitAt buffer (f.bitOffset + j) = f.value.testBit (fieldPlace f.bitLength j)) ∧
      ∀ k, (∀ f ∈ fields, ¬f.Covers k) → bitAt buffer k = bitAt destination k := by
  induction fields generalizing destination with
  | nil =>
      refine ⟨destination, rfl, rfl, fun f hf => ?_, fun _ _ => rfl⟩
      cases hf
  | cons f fields ih =>
      obtain ⟨hfit, hfits⟩ := List.forall_mem_cons.mp hfits
      obtain ⟨hf, hdisjoint⟩ := List.pairwise_cons.mp hdisjoint
      have hrun := (canardEncodeScalar_eq_ok isBigEndian f.bitLength_pos f.bitLength_le
        f.value_lt).mpr ⟨hfit, rfl⟩
      have hlen : (UavcanAdapter.canardEncodeScalar destination f.bitOffset f.bitLength
          f.value).length = destination.length := length_writeBits ..
      rw [← hlen] at hfits
      obtain ⟨buffer, hall, hsize, hbits, hothers⟩ := ih hfits hdisjoint
      rw [hlen] at hsize
      refine ⟨buffer, ?_, hsize, ?_, ?_⟩
      · rw [encodeAll, List.foldlM_cons, hrun]
        exact hall
      · rw [List.forall_mem_cons]
        refine ⟨fun j hj => ?_, hbits⟩
        -- no later field reaches into this one
        have hclear : ∀ g ∈ fields, ¬g.Covers (f.bitOffset + j) := by
          intro g hg hcovers
          have hsep := hf g hg
          rw [Field.Disjoint] at hsep
          rw [Field.Covers] at hcovers
          omega
        rw [hothers _ hclear, bitAt_canardEncodeScalar f.bitLength_le (by omega),
          if_pos (by omega), Nat.add_sub_cancel_left]
      · intro k hk
        obtain ⟨hkf, hk⟩ := List.forall_mem_cons.mp hk
        rw [hothers k hk]
        rcases Nat.lt_or_ge k (8 * destination.length) with hin | hout
        · have hout : ¬(f.bitOffset ≤ k ∧ k < f.bitOffset + f.bitLength) := hkf
          rw [bitAt_canardEncodeScalar f.bitLength_le hin, if_neg hout]
        · rw [bitAt_of_le hout, bitAt_of_le (by omega)]

/-- A field that has its bits is read as its value. -/
theorem canardDecodeScalar_of_bits {buffer : List UInt8} {f : Field}
    (hfits : f.bitOffset + f.bitLength ≤ 8 * buffer.length)
    (hbits : ∀ j < f.bitLength,
      bitAt buffer (f.bitOffset + j) = f.value.testBit (fieldPlace f.bitLength j)) :
    UavcanAdapter.canardDecodeScalar buffer f.bitOffset f.bitLength =
      some (f.value % 2 ^ f.bitLength) := by
  have hpos := f.bitLength_pos
  obtain ⟨v, hv⟩ : ∃ v, UavcanAdapter.canardDecodeScalar buffer f.bitOffset f.bitLength =
      some v := by
    rw [UavcanAdapter.canardDecodeScalar, if_neg (by omega)]
    exact ⟨_, rfl⟩
  rw [hv]
  congr 1
  refine Nat.eq_of_testBit_eq fun i => ?_
  rw [testBit_canardDecodeScalar hv, Nat.testBit_mod_two_pow]
  by_cases hi : i < f.bitLength
  · rw [hbits _ (fieldPlace_lt hi), fieldPlace_fieldPlace hi]
  · rw [decide_eq_false hi, Bool.false_and, Bool.false_and]

/-- Numbers are encoded into a buffer one after the other, on a machine of either
byte order.  If their fields do not overlap, every one of them is decoded from a
transfer with this payload on a machine of either byte order, up to the bits its
field does not have, and all other bits of the buffer are kept. -/
theorem fields_round_trip (isBigEndian : Bool)
    (hfits : ∀ f ∈ fields, f.bitOffset + f.bitLength ≤ 8 * destination.length)
    (hdisjoint : fields.Pairwise Field.Disjoint) :
    ∃ buffer, encodeAll isBigEndian fields destination = .ok buffer ∧
      (∀ k, (∀ f ∈ fields, ¬f.Covers k) → bitAt buffer k = bitAt destination k) ∧
      ∀ f ∈ fields, ∀ (isBigEndian' valueIsSigned : Bool) (transfer : ScatteredRxTransfer),
        transfer.WellFormed → transfer.payload = buffer →
        (f.bitLength = 1 → valueIsSigned = false) →
          canardDecodeScalar isBigEndian' transfer f.bitOffset f.bitLength valueIsSigned =
            .ok (f.bitLength,
              some (readAs f.bitLength valueIsSigned (f.value % 2 ^ f.bitLength))) := by
  obtain ⟨buffer, hrun, hsize, hbits, hothers⟩ := encodeAll_spec isBigEndian hfits hdisjoint
  refine ⟨buffer, hrun, hothers, ?_⟩
  intro f hf isBigEndian' valueIsSigned transfer hwell hpayload hsigned
  have hfit := hfits f hf
  rw [← hsize] at hfit
  rw [canardDecodeScalar_eq hwell isBigEndian' f.bitLength_pos f.bitLength_le hsigned, hpayload,
    canardDecodeScalar_of_bits hfit (hbits f hf), Nat.min_eq_left (by omega)]
  rfl

/-- A field of three bits, one of thirteen that goes over a byte, and a flag. -/
theorem fields_round_trip_mixed :
    let fields : List Field := [{ bitOffset := 3, bitLength := 13, value := 8000 },
      { bitOffset := 0, bitLength := 3, value := 5 }, { bitOffset := 17, bitLength := 1, value := 1 }]
    ∃ buffer, encodeAll false fields [0, 0, 0xFF] = .ok buffer ∧ bitAt buffer 16 = true ∧
      ∀ transfer : ScatteredRxTransfer, transfer.WellFormed → transfer.payload = buffer →
        canardDecodeScalar true transfer 3 13 true = .ok (13, some (-192)) := by
  intro fields
  have hfits : ∀ f ∈ fields, f.bitOffset + f.bitLength ≤ 8 * [0, 0, (0xFF : UInt8)].length := by
    decide
  have hdisjoint : fields.Pairwise Field.Disjoint := by decide
  have hclear : ∀ f ∈ fields, ¬f.Covers 16 := by decide
  obtain ⟨buffer, hrun, hothers, hall⟩ := fields_round_trip false hfits hdisjoint
  refine ⟨buffer, hrun, ?_, fun transfer hwell hpayload => ?_⟩
  · rw [hothers 16 hclear]
    decide
  · exact hall _ (List.mem_cons_self ..) true true transfer hwell hpayload (by decide)

end Fields

end Scalar

/-! ## What the application decodes -/

theorem mem_storeRxState {x st : CanardRxState} {states : List CanardRxState}
    (h : x ∈ storeRxState st states) : x = st ∨ x ∈ states ∧
      ((descriptors states).Nodup → x.dtidTtSnidDnid ≠ st.dtidTtSnidDnid) := by
  induction states with
  | nil => cases h
  | cons y states ih =>
      rw [storeRxState] at h
      by_cases hkey : y.dtidTtSnidDnid = st.dtidTtSnidDnid
      · rw [if_pos hkey] at h
        refine (List.mem_cons.mp h).imp_right fun hx => ⟨List.mem_cons_of_mem _ hx, ?_⟩
        intro hnodup hsame
        refine (List.nodup_cons.mp hnodup).1 ?_
        rw [hkey, ← hsame]
        exact List.mem_map_of_mem hx
      · rw [if_neg hkey] at h
        rcases List.mem_cons.mp h with rfl | hx
        · exact Or.inr ⟨List.mem_cons_self .., fun _ => hkey⟩
        · exact (ih hx).imp_right fun hin =>
            ⟨List.mem_cons_of_mem _ hin.1, fun hnodup => hin.2 (List.nodup_cons.mp hnodup).2⟩

namespace Library

open CanardInstance

variable {s s' : Library} {input : LibraryInput}

/-- There is a place for all that the states count, except for the state whose
transfer the application looks at, and every transfer it was told of has what
it says it has. -/
structure Described (s : Library) : Prop where
  states : ∀ st ∈ s.ins.rxStates,
    (∀ r ∈ s.inFlight, r.transferDescriptor ≠ st.dtidTtSnidDnid) → st.Covered
  delivered : ∀ r ∈ s.delivered, r.transfer.WellFormed

theorem described_init (memArenaSize : Nat) : Described { ins := canardInit memArenaSize } where
  states st hst := by cases hst
  delivered r hr := by cases hr

theorem SameReception.described (h : SameReception s s') (hs : s.Described) : s'.Described := by
  obtain ⟨hstates, hdelivered, hflight⟩ := h
  refine ⟨fun st hst hnot => ?_, ?_⟩
  · rw [hstates] at hst
    refine hs.states st hst fun r hr hkey => ?_
    have hmem : r.transferDescriptor ∈ s'.inFlight.map Reception.transferDescriptor := by
      rw [hflight]
      exact Option.mem_map_of_mem _ hr
    obtain ⟨r', hr', heq⟩ := Option.mem_map.mp hmem
    exact hnot r' hr' (heq.trans hkey)
  · rw [hdelivered]
    exact hs.delivered

/-- Every input keeps it, also where memory runs out or a count wraps around. -/
theorem Described.step (h : s.Described) (hs : s.Sound) (ha : s.Allowed input)
    (hok : s.step input = .ok s') : s'.Described := by
  cases input with
  | frame garbage shouldAccept frame timestampUsec =>
      obtain ⟨⟨ins', r⟩, hrun, hok⟩ := Call.bind_eq_ok.mp hok
      cases Call.pure_eq_ok.mp hok
      have hnone : s.inFlight = none := Option.isNone_iff_eq_none.mp ha
      have hold : ∀ st ∈ s.ins.rxStates, st.Covered := by
        intro st hst
        refine h.states st hst fun r hr => ?_
        rw [hnone] at hr
        cases hr
      have hacc := hs.accounts
      rw [owned] at hacc
      rcases canardHandleRxFrame_cases hrun with
        ⟨rfl, rfl⟩ | ⟨tailByte, ins₁, st, a, st', transfer, -, hselect, hhandle, rfl, rfl⟩
      · refine ⟨fun st hst _ => hold st hst, ?_⟩
        rw [Option.toList_none, List.append_nil]
        exact h.delivered
      obtain ⟨st₀, hselects, hst, -⟩ := selectRxState_spec hselect
      obtain ⟨⟨others, hacc'⟩, hkey, -⟩ := hselects.handleFrame hst hacc hhandle
      have hcovered : st₀.Covered ∧ ∀ x ∈ ins₁.rxStates, x.Covered := by
        cases hselects with
        | found hfind =>
            obtain ⟨front, back, hsplit, -⟩ := findRxState_eq_some hfind
            refine ⟨hold _ ?_, hold⟩
            rw [hsplit]
            exact List.mem_append_right _ (List.mem_cons_self ..)
        | created hnew hcreate =>
            obtain ⟨⟨block, allocator⟩, -, heq⟩ := Option.map_eq_some_iff.mp hcreate
            cases heq
            exact ⟨CanardRxState.covered_of_eq_zero rfl, List.forall_mem_cons.mpr
              ⟨CanardRxState.covered_of_eq_zero rfl, hold⟩⟩
      have hstart : st.Covered := by
        rw [hst]
        exact hcovered.1
      have hcount : st.bufferBlocks.length < 2 ^ 16 := by
        have hlen := hacc'.length
        have hcap := hacc'.capacity
        rw [List.length_append, CanardRxState.owned, List.length_cons,
          CanardRxState.payloadBlocks, List.length_map] at hlen
        omega
      obtain ⟨hafter, hwell⟩ := hstart.handleFrame hcount hhandle
      refine ⟨fun x hx hnot => ?_, ?_⟩
      · rcases mem_storeRxState hx with rfl | ⟨hx, -⟩
        · cases transfer with
          | none => exact hafter rfl
          | some t => exact absurd hkey.symm (hnot _ rfl)
        · exact hcovered.2 x hx
      · rw [List.forall_mem_append]
        refine ⟨h.delivered, fun r hr => ?_⟩
        cases transfer with
        | none => cases hr
        | some t =>
            rw [Option.map_some, Option.toList_some, List.mem_singleton] at hr
            rw [hr]
            exact hwell t rfl
  | finish =>
      obtain ⟨r, hflight⟩ := Option.isSome_iff_exists.mp ha
      rw [Library.step, hflight] at hok
      obtain ⟨ins', hfinish, hok⟩ := Call.bind_eq_ok.mp hok
      cases Call.pure_eq_ok.mp hok
      obtain ⟨st, hfind, -, hstates⟩ := finishReception_eq_ok hfinish
      obtain ⟨-, -, -, hkey, -⟩ := findRxState_eq_some hfind
      refine ⟨fun x hx _ => ?_, h.delivered⟩
      dsimp only at hx
      rw [hstates] at hx
      rcases mem_storeRxState hx with rfl | ⟨hx, hother⟩
      · exact CanardRxState.covered_of_eq_zero rfl
      · refine h.states x hx fun r' hr' hsame => hother hs.distinct ?_
        rw [hflight] at hr'
        cases hr'
        exact hsame.symm.trans hkey.symm
  | cleanup currentTimeUsec =>
      obtain ⟨a, hrun, -⟩ := cleanupLoop_spec currentTimeUsec hs.accounts
      obtain ⟨ins, hcleanup, hok⟩ := Call.bind_eq_ok.mp hok
      rw [canardCleanupStaleTransfers, hrun, Call.ok_bind] at hcleanup
      cases Call.pure_eq_ok.mp hcleanup
      cases Call.pure_eq_ok.mp hok
      exact ⟨fun st hst hnot => h.states st (List.mem_of_mem_filter hst) hnot, h.delivered⟩
  | release => exact (sameReception_of_step hok trivial).described h
  | broadcast => exact (sameReception_of_step hok trivial).described h
  | requestOrRespond => exact (sameReception_of_step hok trivial).described h
  | pop => exact (sameReception_of_step hok trivial).described h
  | setLocalNodeId => exact (sameReception_of_step hok trivial).described h

theorem described_of_reachable (h : library.Reachable s) : s.Described := by
  refine h.invariant ?_ ?_
  · rintro s ⟨memArenaSize, rfl⟩
    exact described_init memArenaSize
  · exact fun s input s' hr hs hst => hs.step (sound_of_reachable hr) hst.2 hst.1

/-- In every run of the library, whatever is lost, damaged, repeated or too long
for the memory: decoding a number from a transfer the application was told of
fails no assertion and leaves no array, and the number is the one that the bits
of the payload in one piece make. -/
theorem decode_delivered {r : Reception} {o n : Nat} {valueIsSigned : Bool}
    (hs : library.Reachable s) (hr : r ∈ s.delivered) (isBigEndian : Bool) (hpos : 1 ≤ n)
    (hle : n ≤ 64) (hsigned : n = 1 → valueIsSigned = false) :
    Scalar.canardDecodeScalar isBigEndian r.transfer o n valueIsSigned =
      .ok ((min n (8 * r.transfer.payload.length - o) : Nat),
        (canardDecodeScalar r.transfer.payload o n).map (Scalar.readAs n valueIsSigned)) :=
  Scalar.canardDecodeScalar_eq ((described_of_reachable hs).delivered r hr) isBigEndian hpos hle
    hsigned

/-- A number of a long message that lies half in the head and half behind it. -/
theorem decode_delivered_interleaved : ∃ s, library.Reachable s ∧ ∃ r ∈ s.delivered,
    Scalar.canardDecodeScalar true r.transfer 43 13 true = .ok (13, some 264) := by
  have hrun : Call.ReturnsWith (runIf (Leaves (transferDescriptor (messageId 4 100 5)))
      { ins := canardInit 128 } (interleaved (List.replicate 12 1) [.finish])) fun s =>
        ∃ r ∈ s.delivered, r.transfer.payload = List.replicate 12 1 := by
    decide +kernel
  obtain ⟨s, hs, r, hr, hpayload⟩ := hrun
  have hreach : library.Reachable s :=
    (run_of_runIf hs).of_restrict.reachable (.init ⟨128, rfl⟩)
  refine ⟨s, hreach, r, hr, ?_⟩
  rw [decode_delivered hreach hr true (by decide) (by decide) (by decide), hpayload]
  decide +kernel

end Library

end UavcanAdapter
