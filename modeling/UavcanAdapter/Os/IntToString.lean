/-
# `Os.IntToString` — integers as text, in any radix

The conversion of `heapless.hpp` as it is carried out: the digits go into a
buffer of `MaxChars + 1` characters from its end on.  The type of the number
and the radix are parameters.  A write or a read outside an array, a failed
assertion and an arithmetic result that is not a value of its type are calls
that do not return.

`intNumeral` is the notation that the loop produces (`cStr_container`), and
`readInt` reads one back: at every type and radix the conversion returns, and
what it returns is read as the number it was given (`readInt_container`).
-/
import Mathlib.Data.Nat.Digits.Lemmas
import UavcanAdapter.Base.Call
import UavcanAdapter.Os.HString

namespace UavcanAdapter

open Base

/-! ## Machine integers -/

/-- An integral type, by its `std::numeric_limits`. -/
structure IntegralType where
  digits : Nat
  isSigned : Bool
  digits_le : digits ≤ 64 := by decide

namespace IntegralType

/-- `digits10`. -/
def digits10 (T : IntegralType) : Nat := T.digits * 643 / 2136

/-- `MaxChars` of `intToString`. -/
def maxChars (T : IntegralType) : Nat := T.digits10 + 1 + (if T.isSigned then 1 else 0)

/-- `x` is a value of the type. -/
def Holds (T : IntegralType) (x : Int) : Prop :=
  (if T.isSigned then -2 ^ T.digits else 0) ≤ x ∧ x < 2 ^ T.digits

theorem two_pow_lt (T : IntegralType) : 2 ^ T.digits < 10 ^ (T.digits10 + 1) := by
  have hall : ∀ d : Fin 65, 2 ^ d.val < 10 ^ (d.val * 643 / 2136 + 1) := by decide +kernel
  exact hall ⟨T.digits, Nat.lt_succ_of_le T.digits_le⟩

theorem Holds.natAbs_lt {T : IntegralType} {x : Int} (h : T.Holds x) :
    x.natAbs < 10 ^ (T.digits10 + 1) := by
  have hpow := T.two_pow_lt
  have hcast : ((2 ^ T.digits : Nat) : Int) = 2 ^ T.digits := by norm_cast
  obtain ⟨hlow, hhigh⟩ := h
  have hlow' : -(2 : Int) ^ T.digits ≤ x := by
    split at hlow
    · exact hlow
    · omega
  omega

theorem Holds.nonneg {T : IntegralType} {x : Int} (h : T.Holds x) (hs : T.isSigned = false) :
    0 ≤ x := by
  have hlow := h.1
  rw [hs] at hlow
  exact hlow

theorem Holds.isSigned {T : IntegralType} {x : Int} (h : T.Holds x) (hneg : x < 0) :
    T.isSigned = true := by
  cases hs : T.isSigned with
  | true => rfl
  | false => exact absurd (h.nonneg hs) (by omega)

instance decHolds (T : IntegralType) (x : Int) : Decidable (T.Holds x) :=
  inferInstanceAs (Decidable (_ ∧ _))

/-- `int`. -/
def int : IntegralType where
  digits := 31
  isSigned := true

/-- `std::int_fast8_t`, which may have eight bits only. -/
def intFast8 : IntegralType where
  digits := 7
  isSigned := true

/-- The type in which a value of `T` is divided by an `int`. -/
def promoted (T : IntegralType) : IntegralType := if T.digits < 31 then int else T

/-- The conversion to the type. -/
def convert (T : IntegralType) (v : Int) : Int :=
  if T.isSigned then v.bmod (2 ^ (T.digits + 1)) else v % 2 ^ T.digits

/-- The result of an operation of a signed type. -/
def checked (T : IntegralType) (v : Int) : Call Int := if T.Holds v then .ok v else .error .bounds

variable {T : IntegralType} {v : Int}

theorem holds_of_natAbs_lt (hs : T.isSigned = true) (h : v.natAbs < 2 ^ T.digits) : T.Holds v := by
  have hcast : ((2 ^ T.digits : Nat) : Int) = 2 ^ T.digits := by norm_cast
  rw [Holds, hs, if_pos rfl]
  omega

theorem convert_of_holds (h : T.Holds v) : T.convert v = v := by
  have hcast : ((2 ^ T.digits : Nat) : Int) = 2 ^ T.digits := by norm_cast
  obtain ⟨hlow, hhigh⟩ := h
  rw [convert]
  cases hs : T.isSigned with
  | true =>
      rw [hs, if_pos rfl] at hlow
      rw [if_pos rfl, Int.bmod_eq_of_le_mul_two]
      · rw [Nat.pow_succ]
        push_cast
        omega
      · rw [Nat.pow_succ]
        push_cast
        omega
  | false =>
      rw [hs, if_neg Bool.false_ne_true] at hlow
      rw [if_neg Bool.false_ne_true, Int.emod_eq_of_lt hlow hhigh]

theorem checked_promoted (hs : T.isSigned = true) (h : v.natAbs < 2 ^ max 31 T.digits) :
    T.promoted.checked v = .ok v := by
  have hholds : T.promoted.Holds v := by
    rw [promoted]
    split
    · exact holds_of_natAbs_lt rfl (by rwa [Nat.max_eq_left (by omega)] at h)
    · exact holds_of_natAbs_lt hs (by rwa [Nat.max_eq_right (by omega)] at h)
  rw [checked, if_pos hholds]

/-- A number without its last digit fits more than well. -/
theorem Holds.natAbs_div_lt {radix : Nat} (h : T.Holds v) (hradix : 2 ≤ radix) :
    v.natAbs / radix < 2 ^ T.digits := by
  have hle : v.natAbs ≤ 2 ^ T.digits := by
    have hcast : ((2 ^ T.digits : Nat) : Int) = 2 ^ T.digits := by norm_cast
    obtain ⟨hlow, hhigh⟩ := h
    split at hlow <;> omega
  have hpos : 0 < 2 ^ T.digits := Nat.two_pow_pos _
  calc v.natAbs / radix ≤ v.natAbs / 2 := Nat.div_le_div_left hradix (by decide)
    _ ≤ 2 ^ T.digits / 2 := Nat.div_le_div_right hle
    _ < 2 ^ T.digits := Nat.div_lt_self hpos (by decide)

end IntegralType

namespace IntToString

/-! ## The conversion -/

/-- `Alphabet`, with the zero at its end. -/
def alphabet : List UInt8 :=
  [0x30, 0x31, 0x32, 0x33, 0x34, 0x35, 0x36, 0x37, 0x38, 0x39, 0x61, 0x62, 0x63, 0x64, 0x65, 0x66,
    0x67, 0x68, 0x69, 0x6A, 0x6B, 0x6C, 0x6D, 0x6E, 0x6F, 0x70, 0x71, 0x72, 0x73, 0x74, 0x75, 0x76,
    0x77, 0x78, 0x79, 0x7A, 0]

/-- `Alphabet[i]`. -/
def alphabetAt (i : Int) : Call UInt8 :=
  match alphabet[i.toNat]? with
  | some c => if 0 ≤ i then .ok c else .error .bounds
  | none => .error .bounds

variable (radix : Nat) (T : IntegralType)

/-- `MaxChars`. -/
def maxChars : Nat :=
  (if radix ≥ 10 then T.digits10 else T.digits) + 1 + (if T.isSigned then 1 else 0)

/-- One pass over a signed number: the character of its last digit, and the
number without it. -/
def signedDigit (x : Int) : Call (UInt8 × Int) := do
  let residual ← T.promoted.checked (x.tmod radix)
  let residual := IntegralType.intFast8.convert residual
  let residual := if residual < 0 then IntegralType.intFast8.convert (-residual) else residual
  let c ← alphabetAt residual
  if x < 0 then do
    let x ← T.promoted.checked (x.tdiv (-radix))
    let x ← T.promoted.checked (-x)
    return (c, T.convert x)
  else do
    let x ← T.promoted.checked (x.tdiv radix)
    return (c, T.convert x)

/-- One pass over an unsigned number. -/
def unsignedDigit (x : Int) : Call (UInt8 × Int) := do
  let c ← alphabetAt (x.tmod radix)
  return (c, T.convert (x.tdiv radix))

/-- The branches of a pass. -/
def nextDigit (x : Int) : Call (UInt8 × Int) :=
  if T.isSigned then signedDigit radix T x else unsignedDigit radix T x

/-- `class Container`. -/
structure Container (maxChars : Nat) where
  offset : Nat
  storage : Vector UInt8 (maxChars + 1)

/-- `storage_[--offset_] = c`, where the offset is a `uint_fast16_t`. -/
def Container.put {m : Nat} (s : Container m) (c : UInt8) : Call (Container m) := do
  let offset := (s.offset + (2 ^ 16 - 1)) % 2 ^ 16
  let storage ← Call.modify s.storage offset fun _ => c
  return { offset, storage }

/-- The loop over the digits, with `fuel` passes at most. -/
def digitLoop {m : Nat} : Nat → Int → Container m → Call (Container m)
  | 0, _, _ => .error .hang
  | fuel + 1, x, s => do
      Call.assert (s.offset > 0)
      let (c, x) ← nextDigit radix T x
      let s ← s.put c
      if x ≠ 0 then digitLoop fuel x s else return s

/-- The sign of a negative number. -/
def Container.putSign {m : Nat} (s : Container m) (negative : Bool) : Call (Container m) :=
  if negative then do
    Call.assert (s.offset > 0)
    s.put 0x2D
  else .ok s

/-- The constructor of `Container`, in memory that holds `stack`. -/
def container (stack : Vector UInt8 (maxChars radix T + 1)) (x : Int) :
    Call (Container (maxChars radix T)) := do
  let negative := T.isSigned && decide (x < 0)
  let storage ← Call.modify stack (maxChars radix T) fun _ => 0
  -- the pass after this many fails the assertion
  let s ← digitLoop radix T (maxChars radix T + 1) x { offset := maxChars radix T, storage }
  let s ← s.putSign negative
  Call.assert (s.offset < maxChars radix T)
  return s

/-- The characters at `c_str()`. -/
def Container.cStr {m : Nat} (s : Container m) : List UInt8 :=
  (s.storage.toList.drop s.offset).takeWhile (· ≠ 0)

/-! ## Notations -/

/-- The character of a digit. -/
def digitChar (d : Nat) : UInt8 := UInt8.ofNat (if d < 10 then 0x30 + d else 0x61 + (d - 10))

/-- The digit of a character, if it is one in the radix. -/
def digitValue (c : UInt8) : Option Nat :=
  let d := if c.toNat < 0x61 then c.toNat - 0x30 else c.toNat - 0x61 + 10
  if digitChar d = c ∧ d < radix then some d else none

/-- The digits of a number that starts with value `v`. -/
def readDigits : Nat → List UInt8 → Option Nat
  | v, [] => some v
  | v, c :: cs =>
      match digitValue radix c with
      | some d => readDigits (radix * v + d) cs
      | none => none

/-- A natural number in the radix: one digit at least, and no zero in front
of others. -/
def readNat (l : List UInt8) : Option Nat :=
  if l = [] ∨ (l.head? = some 0x30 ∧ l ≠ [0x30]) then none else readDigits radix 0 l

/-- An integer in the radix. -/
def readInt (l : List UInt8) : Option Int :=
  if l.head? = some 0x2D then (readNat radix l.tail).map fun n => -Int.ofNat n
  else (readNat radix l).map Int.ofNat

/-- The notation of a natural number. -/
def numeral (n : Nat) : List UInt8 :=
  if n = 0 then [digitChar 0] else (Nat.digits radix n).reverse.map digitChar

/-- The notation of an integer. -/
def intNumeral (x : Int) : List UInt8 :=
  (if x < 0 then [0x2D] else []) ++ numeral radix x.natAbs

section Numeral

variable {radix} {n d : Nat}

theorem toNat_digitChar (h : d < 36) :
    (digitChar d).toNat = if d < 10 then 0x30 + d else 0x61 + (d - 10) := by
  have hlt : (if d < 10 then 0x30 + d else 0x61 + (d - 10)) < 2 ^ 8 := by split <;> omega
  exact UInt8.toNat_ofNat_of_lt' hlt

theorem digitValue_digitChar (hd : d < radix) (hradix : radix ≤ 36) :
    digitValue radix (digitChar d) = some d := by
  have hchar := toNat_digitChar (d := d) (by omega)
  have hback : (if (digitChar d).toNat < 0x61 then (digitChar d).toNat - 0x30
      else (digitChar d).toNat - 0x61 + 10) = d := by
    rw [hchar]
    split <;> split <;> omega
  rw [digitValue, hback]
  exact if_pos ⟨rfl, hd⟩

theorem quotient_lt (hradix : 2 ≤ radix) (h : n / radix ≠ 0) : n / radix < n := by
  refine Nat.div_lt_self ?_ (by omega)
  rcases Nat.eq_zero_or_pos n with rfl | hn
  · exact absurd (Nat.zero_div radix) h
  · exact hn

/-- All digits but the last are the notation of the quotient. -/
theorem numeral_eq (hradix : 2 ≤ radix) (n : Nat) :
    numeral radix n =
      (if n / radix = 0 then [] else numeral radix (n / radix)) ++ [digitChar (n % radix)] := by
  rcases Nat.eq_zero_or_pos n with rfl | hn
  · rw [Nat.zero_div, if_pos rfl, Nat.zero_mod]
    rfl
  · have hdigits := Nat.digits_def' (b := radix) (by omega) hn
    rw [numeral, if_neg (Nat.ne_of_gt hn), hdigits, List.reverse_cons, List.map_append]
    by_cases hsmall : n / radix = 0
    · rw [if_pos hsmall, hsmall]
      simp
    · rw [if_neg hsmall, numeral, if_neg hsmall]
      rfl

theorem numeral_ne_nil (hradix : 2 ≤ radix) (n : Nat) : numeral radix n ≠ [] := by
  rw [numeral_eq hradix]
  simp

theorem length_numeral_le (hradix : 2 ≤ radix) : ∀ (k : Nat) {n : Nat}, n < radix ^ (k + 1) →
    (numeral radix n).length ≤ k + 1
  | 0, n, h => by
      have hsmall : n / radix = 0 := Nat.div_eq_of_lt (by simpa using h)
      rw [numeral_eq hradix, if_pos hsmall]
      simp
  | k + 1, n, h => by
      have hquot : n / radix < radix ^ (k + 1) := by
        rw [Nat.div_lt_iff_lt_mul (by omega), ← Nat.pow_succ]
        exact h
      have ih := length_numeral_le hradix k hquot
      rw [numeral_eq hradix, List.length_append, List.length_singleton]
      split
      · simp
      · omega

/-- The characters of a notation are digits of the radix. -/
theorem mem_numeral (hradix : 2 ≤ radix) {c : UInt8} (h : c ∈ numeral radix n) :
    ∃ d < radix, c = digitChar d := by
  rw [numeral] at h
  split at h
  · exact ⟨0, by omega, List.mem_singleton.mp h⟩
  · obtain ⟨d, hd, rfl⟩ := List.mem_map.mp h
    exact ⟨d, Nat.digits_lt_base (by omega) (List.mem_reverse.mp hd), rfl⟩

theorem readDigits_append : ∀ (l : List UInt8) (v : Nat) (r : List UInt8),
    readDigits radix v (l ++ r) = (readDigits radix v l).bind fun v => readDigits radix v r
  | [], v, r => rfl
  | c :: l, v, r => by
      rw [List.cons_append, readDigits, readDigits]
      cases digitValue radix c with
      | none => rfl
      | some d => exact readDigits_append l _ r

theorem readDigits_numeral (hradix : 2 ≤ radix) (hradix' : radix ≤ 36) (n : Nat) :
    readDigits radix 0 (numeral radix n) = some n := by
  induction n using Nat.strong_induction_on with
  | _ n ih =>
    have hlast : n % radix < radix := Nat.mod_lt _ (by omega)
    have hfront : readDigits radix 0 (if n / radix = 0 then [] else numeral radix (n / radix)) =
        some (n / radix) := by
      split
      · rename_i hsmall
        rw [hsmall]
        rfl
      · rename_i hlarge
        exact ih (n / radix) (quotient_lt hradix hlarge)
    rw [numeral_eq hradix, readDigits_append, hfront, Option.bind_some, readDigits,
      digitValue_digitChar hlast hradix']
    exact congrArg some (Nat.div_add_mod n radix)

/-- A notation of more than one digit does not begin with a zero. -/
theorem head_numeral (hradix : 2 ≤ radix) (hradix' : radix ≤ 36)
    (h : (numeral radix n).head? = some 0x30) : numeral radix n = [0x30] := by
  induction n using Nat.strong_induction_on with
  | _ n ih =>
    rw [numeral_eq hradix] at h ⊢
    by_cases hsmall : n / radix = 0
    · rw [if_pos hsmall] at h ⊢
      rw [Option.some.inj h]
      rfl
    · rw [if_neg hsmall, List.head?_append_of_ne_nil _ (numeral_ne_nil hradix _)] at h
      -- then the quotient would be zero
      have hread := readDigits_numeral hradix hradix' (n / radix)
      rw [ih (n / radix) (quotient_lt hradix hsmall) h, readDigits,
        show (0x30 : UInt8) = digitChar 0 from rfl,
        digitValue_digitChar (by omega) hradix'] at hread
      exact absurd (Option.some.inj hread).symm hsmall

/-- A notation is read back. -/
theorem readNat_numeral (hradix : 2 ≤ radix) (hradix' : radix ≤ 36) (n : Nat) :
    readNat radix (numeral radix n) = some n := by
  rw [readNat, if_neg, readDigits_numeral hradix hradix']
  rintro (hnil | ⟨hzero, hlong⟩)
  · exact numeral_ne_nil hradix n hnil
  · exact hlong (head_numeral hradix hradix' hzero)

/-- A digit is neither a sign nor a terminator. -/
theorem le_toNat_of_mem (hradix : 2 ≤ radix) (hradix' : radix ≤ 36) {c : UInt8}
    (h : c ∈ numeral radix n) : 0x30 ≤ c.toNat := by
  obtain ⟨d, hd, rfl⟩ := mem_numeral hradix h
  rw [toNat_digitChar (by omega)]
  split <;> omega

theorem nulFree_intNumeral (hradix : 2 ≤ radix) (hradix' : radix ≤ 36) (x : Int) :
    NulFree (intNumeral radix x) := by
  refine NulFree.append ?_ ?_
  · split <;> decide
  · intro c hc h0
    have hle := le_toNat_of_mem hradix hradix' hc
    rw [h0] at hle
    exact absurd hle (by decide)

theorem readInt_intNumeral (hradix : 2 ≤ radix) (hradix' : radix ≤ 36) (x : Int) :
    readInt radix (intNumeral radix x) = some x := by
  have hread := readNat_numeral hradix hradix' x.natAbs
  rw [readInt, intNumeral]
  by_cases hneg : x < 0
  · rw [if_pos hneg, List.singleton_append, List.head?_cons, if_pos rfl, List.tail_cons, hread,
      Option.map_some, Option.some.injEq, Int.ofNat_eq_natCast]
    omega
  · have hhead : (numeral radix x.natAbs).head? ≠ some 0x2D := by
      intro hsign
      have hle := le_toNat_of_mem hradix hradix' (List.mem_of_head? hsign)
      exact absurd hle (by decide)
    rw [if_neg hneg, List.nil_append, if_neg hhead, hread, Option.map_some, Option.some.injEq,
      Int.ofNat_eq_natCast]
    omega

end Numeral

/-! ## What the container holds -/

section Container

variable {radix T} {m : Nat} {x : Int}

theorem alphabetAt_eq {d : Nat} (h : d < 36) : alphabetAt d = .ok (digitChar d) := by
  have hall : ∀ d : Fin 36, alphabetAt d.val = .ok (digitChar d.val) := by decide
  exact hall ⟨d, h⟩

theorem natAbs_tmod_radix : (x.tmod radix).natAbs = x.natAbs % radix := by
  rw [Int.natAbs_tmod, Int.natAbs_natCast]

theorem natAbs_tdiv_radix : (x.tdiv radix).natAbs = x.natAbs / radix := by
  rw [Int.natAbs_tdiv, Int.natAbs_natCast]
  rfl

/-- A number without its last digit is a value of its type. -/
theorem holds_tdiv (hx : T.Holds x) (hradix : 2 ≤ radix) : T.Holds (x.tdiv radix) := by
  have hdiv : (x.tdiv radix).natAbs = x.natAbs / radix := natAbs_tdiv_radix
  cases hs : T.isSigned with
  | true => exact IntegralType.holds_of_natAbs_lt hs (by rw [hdiv]; exact hx.natAbs_div_lt hradix)
  | false =>
      have hnonneg := hx.nonneg hs
      have hquot : 0 ≤ x.tdiv radix := Int.tdiv_nonneg hnonneg (by omega)
      have hle : x.natAbs / radix ≤ x.natAbs := Nat.div_le_self _ _
      have hhigh := hx.2
      refine ⟨?_, by omega⟩
      rwa [hs]

/-- A pass over a signed number, be it the most negative one, meets no
overflow. -/
theorem signedDigit_eq (hs : T.isSigned = true) (hx : T.Holds x) (hradix : 2 ≤ radix)
    (hradix' : radix ≤ 36) :
    signedDigit radix T x = .ok (digitChar (x.natAbs % radix), x.tdiv radix) := by
  have hmod : (x.tmod radix).natAbs = x.natAbs % radix := natAbs_tmod_radix
  have hdiv : (x.tdiv radix).natAbs = x.natAbs / radix := natAbs_tdiv_radix
  have hlt : x.natAbs % radix < radix := Nat.mod_lt _ (by omega)
  have hquot : x.natAbs / radix < 2 ^ T.digits := hx.natAbs_div_lt hradix
  have hwide : 2 ^ T.digits ≤ 2 ^ max 31 T.digits :=
    Nat.pow_le_pow_right (by decide) (Nat.le_max_right _ _)
  have hwide' : 2 ^ 31 ≤ 2 ^ max 31 T.digits :=
    Nat.pow_le_pow_right (by decide) (Nat.le_max_left _ _)
  have hfast : ∀ v : Int, v.natAbs = x.natAbs % radix → IntegralType.intFast8.convert v = v :=
    fun v hv => IntegralType.convert_of_holds (IntegralType.holds_of_natAbs_lt rfl
      (show v.natAbs < 2 ^ 7 by omega))
  have habs : (if x.tmod radix < 0 then -x.tmod radix else x.tmod radix) =
      ((x.natAbs % radix : Nat) : Int) := by
    split <;> omega
  have hconvert : T.convert (x.tdiv radix) = x.tdiv radix :=
    IntegralType.convert_of_holds (holds_tdiv hx hradix)
  rw [signedDigit, IntegralType.checked_promoted hs (by omega), Call.ok_bind]
  simp only [hfast _ hmod, hfast _ ((Int.natAbs_neg _).trans hmod), habs,
    alphabetAt_eq (Nat.lt_of_lt_of_le hlt hradix'), Call.ok_bind]
  split
  · rw [Int.tdiv_neg, IntegralType.checked_promoted hs (by omega), Call.ok_bind, neg_neg,
      IntegralType.checked_promoted hs (by omega), Call.ok_bind, hconvert]
    rfl
  · rw [IntegralType.checked_promoted hs (by omega), Call.ok_bind, hconvert]
    rfl

theorem unsignedDigit_eq (hs : T.isSigned = false) (hx : T.Holds x) (hradix : 2 ≤ radix)
    (hradix' : radix ≤ 36) :
    unsignedDigit radix T x = .ok (digitChar (x.natAbs % radix), x.tdiv radix) := by
  have hnonneg := hx.nonneg hs
  have hmod : x.tmod radix = ((x.natAbs % radix : Nat) : Int) := by
    have habs : (x.tmod radix).natAbs = x.natAbs % radix := natAbs_tmod_radix
    have hpos : 0 ≤ x.tmod radix := Int.tmod_nonneg _ hnonneg
    omega
  have hlt : x.natAbs % radix < radix := Nat.mod_lt _ (by omega)
  have hconvert : T.convert (x.tdiv radix) = x.tdiv radix :=
    IntegralType.convert_of_holds (holds_tdiv hx hradix)
  rw [unsignedDigit, hmod, alphabetAt_eq (Nat.lt_of_lt_of_le hlt hradix'), Call.ok_bind, hconvert]
  rfl

/-- A pass of the loop: the last digit, and the number without it. -/
theorem nextDigit_eq (hx : T.Holds x) (hradix : 2 ≤ radix) (hradix' : radix ≤ 36) :
    nextDigit radix T x = .ok (digitChar (x.natAbs % radix), x.tdiv radix) := by
  rw [nextDigit]
  cases hs : T.isSigned with
  | true => rw [if_pos rfl, signedDigit_eq hs hx hradix hradix']
  | false => rw [if_neg Bool.false_ne_true, unsignedDigit_eq hs hx hradix hradix']

/-- What lies behind the offset. -/
def Container.text (s : Container m) : List UInt8 := s.storage.toList.drop s.offset

theorem put_spec {s : Container m} {c : UInt8} (hpos : 0 < s.offset) (hle : s.offset ≤ m)
    (hm : m < 2 ^ 16) :
    ∃ s', s.put c = .ok s' ∧ s'.offset + 1 = s.offset ∧ s'.text = c :: s.text := by
  have hoffset : (s.offset + (2 ^ 16 - 1)) % 2 ^ 16 = s.offset - 1 := by omega
  have hlt : s.offset - 1 < m + 1 := by omega
  refine ⟨⟨s.offset - 1, s.storage.set (s.offset - 1) c⟩, ?_, Nat.sub_add_cancel hpos, ?_⟩
  · rw [Container.put]
    simp only [hoffset]
    rw [Call.modify_of_lt hlt]
    rfl
  · have hlen : s.offset - 1 < (s.storage.toList.set (s.offset - 1) c).length := by
      rw [List.length_set, Vector.length_toList]
      exact hlt
    rw [Container.text, Vector.toList_set, List.drop_eq_getElem_cons hlen, List.getElem_set_self,
      List.drop_set_of_lt (Nat.lt_add_one _), Nat.sub_add_cancel hpos, Container.text]

/-- With room for `k + 1` digits the loop puts those of a number below
`radix ^ (k + 1)` in front of what is there. -/
theorem digitLoop_spec (hradix : 2 ≤ radix) (hradix' : radix ≤ 36) (hm : m < 2 ^ 16) :
    ∀ (k fuel : Nat) (x : Int) (s : Container m), T.Holds x → x.natAbs < radix ^ (k + 1) →
      k + 1 ≤ fuel → k + 1 ≤ s.offset → s.offset ≤ m →
      ∃ s', digitLoop radix T fuel x s = .ok s' ∧
        s'.offset + (numeral radix x.natAbs).length = s.offset ∧
        s'.text = numeral radix x.natAbs ++ s.text
  | k, 0, _, _, _, _, hfuel, _, _ => absurd hfuel (Nat.not_succ_le_zero k)
  | k, fuel + 1, x, s, hx, hlt, hfuel, hroom, hle => by
      obtain ⟨s₁, hput, hoffset, htext⟩ := put_spec (c := digitChar (x.natAbs % radix))
        (show 0 < s.offset by omega) hle hm
      have hquot : (x.tdiv radix).natAbs = x.natAbs / radix := natAbs_tdiv_radix
      rw [digitLoop, Call.assert_of_true (by omega), Call.ok_bind, nextDigit_eq hx hradix hradix',
        Call.ok_bind]
      simp only [hput, Call.ok_bind]
      by_cases hmore : x.tdiv radix = 0
      · have hsmall : x.natAbs / radix = 0 := by rw [← hquot, hmore]; rfl
        rw [if_neg (not_not.mpr hmore), numeral_eq hradix, if_pos hsmall]
        exact ⟨s₁, rfl, hoffset, htext⟩
      · have hlarge : x.natAbs / radix ≠ 0 := by
          rw [← hquot]
          exact Int.natAbs_ne_zero.mpr hmore
        cases k with
        | zero => exact absurd (Nat.div_eq_of_lt (by simpa using hlt)) hlarge
        | succ k =>
            have hlt' : (x.tdiv radix).natAbs < radix ^ (k + 1) := by
              rw [hquot, Nat.div_lt_iff_lt_mul (by omega), ← Nat.pow_succ]
              exact hlt
            obtain ⟨s', hloop, hsum, hfinal⟩ := digitLoop_spec hradix hradix' hm k fuel
              (x.tdiv radix) s₁ (holds_tdiv hx hradix) hlt' (by omega) (by omega) (by omega)
            rw [if_pos hmore, numeral_eq hradix, if_neg hlarge]
            rw [hquot] at hsum hfinal
            refine ⟨s', hloop, ?_, ?_⟩
            · rw [List.length_append, List.length_singleton]
              omega
            · rw [hfinal, htext, List.append_assoc]
              rfl

/-- The digits of a value fit, and the sign as well. -/
theorem exists_room (T : IntegralType) (hradix : 2 ≤ radix) :
    ∃ k, maxChars radix T = k + 1 + (if T.isSigned then 1 else 0) ∧ k + 1 ≤ 66 ∧
      ∀ x, T.Holds x → x.natAbs < radix ^ (k + 1) := by
  have hdigits := T.digits_le
  by_cases hten : radix ≥ 10
  · refine ⟨T.digits10, ?_, ?_, ?_⟩
    · rw [maxChars, if_pos hten]
    · rw [IntegralType.digits10]
      omega
    · intro x hx
      exact Nat.lt_of_lt_of_le hx.natAbs_lt (Nat.pow_le_pow_left hten _)
  · refine ⟨T.digits, ?_, by omega, ?_⟩
    · rw [maxChars, if_neg hten]
    · intro x hx
      have hdiv := hx.natAbs_div_lt (Nat.le_refl 2)
      calc x.natAbs < 2 ^ T.digits * 2 := by omega
        _ = 2 ^ (T.digits + 1) := (Nat.pow_succ 2 _).symm
        _ ≤ radix ^ (T.digits + 1) := Nat.pow_le_pow_left hradix _

/-- The container holds the notation of the number. -/
theorem container_spec (hradix : 2 ≤ radix) (hradix' : radix ≤ 36) (hx : T.Holds x)
    (stack : Vector UInt8 (maxChars radix T + 1)) :
    ∃ s, container radix T stack x = .ok s ∧
      s.text = intNumeral radix x ++ [0] := by
  rw [intNumeral]
  obtain ⟨k, hmax, hk, hfit⟩ := exists_room T hradix
  have hroom : k + 1 ≤ maxChars radix T := by omega
  have hm : maxChars radix T < 2 ^ 16 := by
    split at hmax <;> omega
  have hlen := length_numeral_le hradix k (hfit x hx)
  have hne := List.length_pos_iff.mpr (numeral_ne_nil hradix x.natAbs)
  have hterm : Container.text ⟨maxChars radix T, stack.set (maxChars radix T) 0⟩ = [0] := by
    have hlast : maxChars radix T < (stack.toList.set (maxChars radix T) 0).length := by
      rw [List.length_set, Vector.length_toList]
      exact Nat.lt_add_one _
    rw [Container.text, Vector.toList_set, List.drop_eq_getElem_cons hlast, List.getElem_set_self,
      List.drop_eq_nil_of_le]
    rw [List.length_set, Vector.length_toList]
  obtain ⟨s, hloop, hoffset, htext⟩ := digitLoop_spec hradix hradix' hm k (maxChars radix T + 1) x
    ⟨maxChars radix T, stack.set (maxChars radix T) 0⟩ hx (hfit x hx) (by omega) hroom
    (Nat.le_refl _)
  rw [hterm] at htext
  simp only at hoffset
  have hdone : ∀ {s' : Container (maxChars radix T)}, s'.offset < maxChars radix T →
      s.putSign (T.isSigned && decide (x < 0)) = .ok s' → container radix T stack x = .ok s' := by
    intro s' hlt hsign
    rw [container, Call.modify_of_lt (Nat.lt_add_one _), Call.ok_bind, hloop, Call.ok_bind, hsign,
      Call.ok_bind, Call.assert_of_true hlt]
    rfl
  by_cases hneg : x < 0
  · have hsigned : T.isSigned = true := hx.isSigned hneg
    rw [hsigned, if_pos rfl] at hmax
    obtain ⟨s', hput, hoffset', htext'⟩ := put_spec (s := s) (c := 0x2D) (by omega) (by omega) hm
    rw [if_pos hneg]
    refine ⟨s', hdone (by omega) ?_, by rw [htext', htext]; rfl⟩
    rw [hsigned, decide_eq_true hneg, Bool.and_self, Container.putSign, if_pos rfl,
      Call.assert_of_true (by omega), Call.ok_bind, hput]
  · rw [if_neg hneg]
    refine ⟨s, hdone (by omega) ?_, htext⟩
    rw [decide_eq_false hneg, Bool.and_false]
    rfl

theorem cStr_container (hradix : 2 ≤ radix) (hradix' : radix ≤ 36) (hx : T.Holds x)
    (stack : Vector UInt8 (maxChars radix T + 1)) :
    ∃ s, container radix T stack x = .ok s ∧ s.cStr = intNumeral radix x := by
  obtain ⟨s, hs, htext⟩ := container_spec hradix hradix' hx stack
  have hall : ∀ c ∈ intNumeral radix x, decide (c ≠ 0) = true :=
    fun c hc => decide_eq_true (nulFree_intNumeral hradix hradix' x c hc)
  refine ⟨s, hs, ?_⟩
  rw [Container.text] at htext
  rw [Container.cStr, htext, List.takeWhile_append_of_pos hall,
    List.takeWhile_cons_of_neg (by simp), List.append_nil]

/-- Any value of any integral type comes out in any radix, and is read back. -/
theorem readInt_container (hradix : 2 ≤ radix) (hradix' : radix ≤ 36) (hx : T.Holds x)
    (stack : Vector UInt8 (maxChars radix T + 1)) :
    ∃ s, container radix T stack x = .ok s ∧ readInt radix s.cStr = some x := by
  obtain ⟨s, hs, hstr⟩ := cStr_container hradix hradix' hx stack
  exact ⟨s, hs, by rw [hstr, readInt_intNumeral hradix hradix']⟩

/-- The most negative number of 64 bits, in the radix with the most digits. -/
theorem readInt_container_min : ∃ s,
    container 2 { digits := 63, isSigned := true } (Vector.replicate _ 0) (-2 ^ 63) = .ok s ∧
      readInt 2 (Container.cStr s) = some (-2 ^ 63) :=
  readInt_container (T := { digits := 63, isSigned := true }) (by decide) (by decide) (by decide) _

end Container

end IntToString

end UavcanAdapter
