/-
# `Os.StringEquality` — when two strings are equal

`String::compare` and the operators `==` of `heapless.hpp`.  Each of them
ends in a call of `strncmp` that looks at as many characters as the string
has room for, and not at the terminator behind them.  So a string asks
whether its characters are the first ones of the other operand
(`compare_eq_true_iff`).  That is equality, unless the string is full and the
other one goes on: `CutShort`.

A set of strings of any capacities on which no string is cut short by
another is divided into classes by `==`, and only such a set is
(`equality_iff`).
-/
import Mathlib.Data.List.TakeWhile
import UavcanAdapter.Os.HeaplessString

namespace UavcanAdapter

open Base

/-! ## `strncmp` -/

/-- `std::strncmp`, of what lies at two pointers.  A list that is at its end
is at its terminator. -/
def strncmp : Nat → List UInt8 → List UInt8 → Int
  | 0, _, _ => 0
  | n + 1, l, r =>
      if l.headD 0 ≠ r.headD 0 then (l.headD 0).toNat - (r.headD 0).toNat
      else if l.headD 0 = 0 then 0
      else strncmp n l.tail r.tail

/-- The characters of a C string: those in front of the terminator. -/
def cChars (l : List UInt8) : List UInt8 := l.takeWhile (· ≠ 0)

theorem cChars_of_headD {l : List UInt8} (h : l.headD 0 = 0) : cChars l = [] := by
  cases l with
  | nil => rfl
  | cons c l =>
      obtain rfl : c = 0 := h
      exact List.takeWhile_cons_of_neg (by simp)

theorem cChars_of_headD_ne {l : List UInt8} (h : l.headD 0 ≠ 0) :
    cChars l = l.headD 0 :: cChars l.tail := by
  cases l with
  | nil => exact absurd rfl h
  | cons c l => exact List.takeWhile_cons_of_pos (decide_eq_true h)

theorem headD_take_cChars (n : Nat) (l : List UInt8) :
    ((cChars l).take (n + 1)).headD 0 = l.headD 0 := by
  by_cases h0 : l.headD 0 = 0
  · rw [cChars_of_headD h0, h0]
    rfl
  · rw [cChars_of_headD_ne h0]
    rfl

/-- `strncmp` finds no difference iff the first characters are the same. -/
theorem strncmp_eq_zero_iff : ∀ (n : Nat) (l r : List UInt8),
    strncmp n l r = 0 ↔ (cChars l).take n = (cChars r).take n
  | 0, _, _ => by simp [strncmp]
  | n + 1, l, r => by
      rw [strncmp]
      by_cases heq : l.headD 0 = r.headD 0
      · rw [if_neg (not_not.mpr heq)]
        by_cases h0 : l.headD 0 = 0
        · have hr : cChars r = [] := cChars_of_headD (by rw [← heq, h0])
          rw [if_pos h0, cChars_of_headD h0, hr]
          exact ⟨fun _ => rfl, fun _ => rfl⟩
        · have hr : cChars r = l.headD 0 :: cChars r.tail := by
            rw [heq]
            exact cChars_of_headD_ne (by rwa [← heq])
          rw [if_neg h0, strncmp_eq_zero_iff n, cChars_of_headD_ne h0, hr, List.take_succ_cons,
            List.take_succ_cons]
          exact ⟨fun h => by rw [h], fun h => (List.cons.inj h).2⟩
      · rw [if_pos heq]
        constructor
        · intro h
          exact absurd (UInt8.toNat_inj.mp (by omega)) heq
        · intro h
          have hhead := congrArg (·.headD 0) h
          simp only [headD_take_cChars] at hhead
          exact absurd hhead heq

namespace HeaplessString

variable {capacity : Nat}

/-! ## The operators -/

/-- `compare(const char*)`; none is `nullptr`. -/
def compare (s : HeaplessString capacity) : Option (List UInt8) → Bool
  | some p => 0 == strncmp capacity s.buf.toList p
  | none => false

/-- What a string can be compared with. -/
inductive Operand
  /-- a `const char*`, none for `nullptr` -/
  | cString (p : Option (List UInt8))
  | string {capacity : Nat} (s : HeaplessString capacity)

/-- The operators `==` of which an operand is a string. -/
def operatorEq : Operand → Operand → Option Bool
  | .string s, .cString p => some (s.compare p)
  | .string s, .string t => some (s.compare (some t.buf.toList))
  | .cString p, .string s => some (s.compare p)
  | .cString _, .cString _ => none

/-- The representation of a string is valid: it ends with a terminator, and
there is none in front of its end. -/
structure Valid (s : HeaplessString capacity) : Prop where
  nulFree : NulFree s.range
  atEnd : s.atEnd = 0

/-- The characters of an operand. -/
def Operand.Contains : Operand → List UInt8 → Prop
  | .cString (some p), l => cChars p = l
  | .cString none, _ => False
  | .string s, l => s.Valid ∧ s.range = l

/-- The string is full, and `l` goes on behind its characters. -/
def CutShort (s : HeaplessString capacity) (l : List UInt8) : Prop :=
  s.length = capacity ∧ s.range <+: l ∧ s.range ≠ l

section Equality

variable {s : HeaplessString capacity} {x : Operand} {l : List UInt8}

theorem Valid.cChars (h : s.Valid) : cChars s.buf.toList = s.range := cStr_eq_range h.nulFree h.atEnd

/-- What the operations of the class make of valid strings is valid, as long as
the terminator is there. -/
theorem Built.valid {v : HString capacity} (h : Built s v true) : s.Valid where
  nulFree := by
    rw [h.keeps.range]
    exact h.keeps.nulFree
  atEnd := h.keeps.atEnd rfl

/-- A string asks whether the other operand begins with its characters. -/
theorem compare_eq_true_iff (hs : s.Valid) {p : List UInt8} :
    s.compare (some p) = true ↔ (UavcanAdapter.cChars p).take capacity = s.range := by
  have hfit : s.range.take capacity = s.range := List.take_of_length_le (by
    rw [length_range]
    exact s.len_le)
  rw [compare, beq_iff_eq, eq_comm, strncmp_eq_zero_iff, hs.cChars, hfit, eq_comm]

/-- The operator with a string on its left asks the same of any operand. -/
theorem operatorEq_string_iff (hs : s.Valid) (hx : x.Contains l) :
    operatorEq (.string s) x = some true ↔ l.take capacity = s.range := by
  cases x with
  | cString p =>
      cases p with
      | none => exact absurd hx not_false
      | some p =>
          obtain rfl : UavcanAdapter.cChars p = l := hx
          rw [operatorEq, Option.some.injEq, compare_eq_true_iff hs]
  | string t =>
      obtain ⟨ht, rfl⟩ := hx
      rw [operatorEq, Option.some.injEq, compare_eq_true_iff hs, ht.cChars]

/-- A string that is cut short takes the other one for itself. -/
theorem CutShort.take (h : s.CutShort l) : l.take capacity = s.range := by
  obtain ⟨hfull, hprefix, -⟩ := h
  have hlen : s.range.length = capacity := length_range.trans hfull
  rw [List.prefix_iff_eq_take.mp hprefix, hlen]

/-- The first characters are all of them, unless the string is cut short. -/
theorem take_eq_range_iff :
    (l.take capacity = s.range ↔ s.range = l) ↔ ¬s.CutShort l := by
  have hlen : s.range.length = s.length := length_range
  constructor
  · exact fun h hcut => hcut.2.2 (h.mp hcut.take)
  · intro hnot
    constructor
    · intro htake
      by_contra hne
      rcases Nat.lt_or_ge capacity l.length with hlong | hshort
      · have hfull : s.length = capacity := by
          rw [← hlen, ← htake, List.length_take, Nat.min_eq_left (Nat.le_of_lt hlong)]
        refine hnot ⟨hfull, ?_, hne⟩
        rw [← htake]
        exact List.take_prefix capacity l
      · rw [List.take_of_length_le hshort] at htake
        exact hne htake.symm
    · rintro rfl
      rw [List.take_of_length_le]
      rw [hlen]
      exact s.len_le

end Equality

/-! ## Strings of all capacities -/

/-- A string of any capacity, with a valid representation. -/
structure AnyString where
  {capacity : Nat}
  string : HeaplessString capacity
  valid : string.Valid

namespace AnyString

/-- `a == b`. -/
def Equal (a b : AnyString) : Prop := operatorEq (.string a.string) (.string b.string) = some true

def chars (a : AnyString) : List UInt8 := a.string.range

theorem equal_iff {a b : AnyString} : a.Equal b ↔ b.chars.take a.capacity = a.chars :=
  operatorEq_string_iff a.valid ⟨b.valid, rfl⟩

end AnyString

/-- Equality is what it should be iff no string is cut short: between a string
and any operand in either order, and as an equivalence on strings of all
capacities. -/
theorem equality_iff {capacity : Nat} {s : HeaplessString capacity} (hs : s.Valid)
    (l : List UInt8) (S : Set AnyString) :
    (∀ x : Operand, x.Contains l →
      ((operatorEq (.string s) x = some true ↔ s.range = l) ↔ ¬s.CutShort l)) ∧
    (∀ p : Option (List UInt8), (Operand.cString p).Contains l →
      ((operatorEq (.cString p) (.string s) = some true ↔ s.range = l) ↔ ¬s.CutShort l)) ∧
    (Equivalence (fun a b : S => a.val.Equal b.val) ↔
      ∀ a ∈ S, ∀ b ∈ S, ¬a.string.CutShort b.chars) := by
  have hleft : ∀ {capacity : Nat} {s : HeaplessString capacity} {x : Operand} {l : List UInt8},
      s.Valid → x.Contains l →
        ((operatorEq (.string s) x = some true ↔ s.range = l) ↔ ¬s.CutShort l) := by
    intro capacity s x l hs hx
    rw [operatorEq_string_iff hs hx]
    exact take_eq_range_iff
  refine ⟨fun _ hx => hleft hs hx, fun _ hx => hleft hs hx, ?_⟩
  constructor
  · intro h a ha b hb hcut
    have hab : a.Equal b := AnyString.equal_iff.mpr hcut.take
    have hba : b.Equal a := h.symm (x := ⟨a, ha⟩) (y := ⟨b, hb⟩) hab
    have hlen : b.chars.length ≤ a.chars.length := by
      rw [← AnyString.equal_iff.mp hba]
      exact List.length_take_le' _ _
    exact hcut.2.2 (hcut.2.1.eq_of_length_le hlen)
  · intro h
    have hequal : ∀ a b : S, a.val.Equal b.val ↔ a.val.chars = b.val.chars := by
      intro a b
      have hb : (Operand.string b.val.string).Contains b.val.chars := ⟨b.val.valid, rfl⟩
      exact (hleft a.val.valid hb).mpr (h a.val a.property b.val b.property)
    constructor
    · exact fun a => (hequal a a).mpr rfl
    · exact fun {a b} hab => (hequal b a).mpr ((hequal a b).mp hab).symm
    · exact fun {a b c} hab hbc =>
        (hequal a c).mpr (((hequal a b).mp hab).trans ((hequal b c).mp hbc))

theorem valid_appendCString {p : List UInt8} (hp : NulFree p) :
    (({} : HeaplessString capacity).appendCString p).Valid := by
  have harg : Chars (.cString (some p)) p := ⟨rfl, hp⟩
  exact Built.valid (.append .new harg rfl)

/-- A string with room to spare, and a longer C string. -/
theorem equality_iff_short :
    operatorEq (.string (({} : HeaplessString 4).appendCString [0x61, 0x62]))
        (.cString (some [0x61, 0x62, 0x63])) = some true ↔
      (({} : HeaplessString 4).appendCString [0x61, 0x62]).range = [0x61, 0x62, 0x63] := by
  have habc : (Operand.cString (some [0x61, 0x62, 0x63])).Contains [0x61, 0x62, 0x63] := rfl
  exact ((equality_iff (valid_appendCString (by decide)) _ ∅).1 _ habc).mpr fun hcut =>
    absurd hcut.1 (by decide)

/-- A string of four characters that fill it, and a longer one: it equals the
longer one, which does not equal it. -/
theorem equality_fails :
    (({} : HeaplessString 4).appendCString [0x61, 0x62, 0x63, 0x64]).Valid ∧
    (({} : HeaplessString 8).appendCString [0x61, 0x62, 0x63, 0x64, 0x65]).Valid ∧
    (({} : HeaplessString 4).appendCString [0x61, 0x62, 0x63, 0x64]).range ≠
      (({} : HeaplessString 8).appendCString [0x61, 0x62, 0x63, 0x64, 0x65]).range ∧
    operatorEq (.string (({} : HeaplessString 4).appendCString [0x61, 0x62, 0x63, 0x64]))
      (.cString (some [0x61, 0x62, 0x63, 0x64, 0x65])) = some true ∧
    operatorEq (.string (({} : HeaplessString 4).appendCString [0x61, 0x62, 0x63, 0x64]))
      (.string (({} : HeaplessString 8).appendCString [0x61, 0x62, 0x63, 0x64, 0x65])) =
        some true ∧
    operatorEq (.string (({} : HeaplessString 8).appendCString [0x61, 0x62, 0x63, 0x64, 0x65]))
      (.string (({} : HeaplessString 4).appendCString [0x61, 0x62, 0x63, 0x64])) = some false :=
  ⟨valid_appendCString (by decide), valid_appendCString (by decide), by decide, by decide,
    by decide, by decide⟩

end HeaplessString

end UavcanAdapter
