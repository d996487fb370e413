/-
# `Os.HeaplessString` — a string in a buffer of fixed size

`heapless.hpp`, of which bootloader and application have the same copy: a
length, and a buffer with room for a terminator.  There are three views of a
string: its length, the range from `begin()` to `end()`, and what `c_str()`
points to.

The first two are always those of the value (`Keeps.range`), apart from what
`format` leaves when its output does not fit, and from a string that is
appended to itself: the loop then reads what it writes, never gets to the
terminator and fills the buffer (`copyOwnLoop_spec`).  The third view needs the
terminator.  Everything that appends writes it, `clear` does not: until
something is appended, `c_str()` is still what it was before.  `Built` follows
strings through their operations and says when this is so.
-/
import UavcanAdapter.Os.IntToString

namespace UavcanAdapter

open Base

/-! ## Integers -/

/-- `intToString`, in memory that holds `stack`. -/
def intToString (T : IntegralType) (stack : Nat → UInt8) (x : Int) : Call (List UInt8) := do
  let s ← IntToString.container 10 T (Vector.ofFn fun i => stack i.val) x
  return s.cStr

/-- `intToString` of a value of its type is its decimal notation. -/
theorem intToString_spec {T : IntegralType} {x : Int} (h : T.Holds x) (stack : Nat → UInt8) :
    intToString T stack x = .ok (IntToString.intNumeral 10 x) := by
  obtain ⟨s, hs, hstr⟩ := IntToString.cStr_container (show 2 ≤ 10 by decide) (by decide) h
    (Vector.ofFn fun i => stack i.val)
  rw [intToString, hs, Call.ok_bind, hstr]
  rfl

/-! ## The class -/

/-- `heapless::String`. -/
structure HeaplessString (capacity : Nat) where
  len : Nat := 0
  buf : Vector UInt8 (capacity + 1) := Vector.replicate (capacity + 1) 0
  len_le : len ≤ capacity := by exact Nat.zero_le _
  /-- what `append` asserts at its end -/
  buf_capacity : buf[capacity] = 0 := by simp

/-- What `append` is overloaded for. -/
inductive Arg
  /-- a `const char*` to other memory, none for `nullptr` -/
  | cString (p : Option (List UInt8))
  /-- a pointer to the `i`-th character of the buffer of the very string that is
  appended to; the string itself, a reference, is that with `i = 0` -/
  | own (i : Nat)
  | char (c : UInt8)
  /-- an integer, converted in memory that holds `stack` -/
  | integer (T : IntegralType) (stack : Nat → UInt8) (x : Int)
  /-- another string -/
  | string {capacity : Nat} (s : HeaplessString capacity)

namespace HeaplessString

variable {capacity : Nat}

def length (s : HeaplessString capacity) : Nat := s.len

/-- The characters from `begin()` to `end()`. -/
def range (s : HeaplessString capacity) : List UInt8 := s.buf.toList.take s.len

/-- The character at `end()`. -/
def atEnd (s : HeaplessString capacity) : UInt8 := s.buf.get ⟨s.len, Nat.lt_succ_of_le s.len_le⟩

/-- The characters at `c_str()`, up to the first NUL. -/
def cStr (s : HeaplessString capacity) : List UInt8 := s.buf.toList.takeWhile (· ≠ 0)

/-- `clear`. -/
def clear (s : HeaplessString capacity) : HeaplessString capacity :=
  { s with len := 0, len_le := Nat.zero_le capacity }

/-- `buf_[len_++] = c`. -/
def push (s : HeaplessString capacity) (c : UInt8) (h : s.len < capacity) :
    HeaplessString capacity where
  len := s.len + 1
  buf := s.buf.set s.len c
  len_le := h
  buf_capacity := by
    rw [Vector.getElem_set_ne _ _ (Nat.ne_of_lt h)]
    exact s.buf_capacity

/-- `buf_[len_] = '\0'`. -/
def terminate (s : HeaplessString capacity) : HeaplessString capacity where
  len := s.len
  buf := s.buf.set s.len 0 (Nat.lt_succ_of_le s.len_le)
  len_le := s.len_le
  buf_capacity := by
    rw [Vector.getElem_set]
    split
    · rfl
    · exact s.buf_capacity

/-- `append(char)`. -/
def appendChar (s : HeaplessString capacity) (c : UInt8) : HeaplessString capacity :=
  (if h : s.len < capacity then s.push c h else s).terminate

/-- The loop of `append(const char*)`, over the characters in front of the
terminator. -/
def copyLoop : List UInt8 → HeaplessString capacity → HeaplessString capacity
  | [], s => s
  | c :: p, s => if h : c ≠ 0 ∧ s.len < capacity then copyLoop p (s.push c h.2) else s

/-- The same loop where it reads the buffer it writes, with `fuel` passes at
most. -/
def copyOwnLoop : Nat → Nat → HeaplessString capacity → Call (HeaplessString capacity)
  | 0, _, _ => .error .hang
  | fuel + 1, i, s =>
      if hi : i ≤ capacity then
        if h : s.buf.get ⟨i, Nat.lt_succ_of_le hi⟩ ≠ 0 ∧ s.len < capacity then
          copyOwnLoop fuel (i + 1) (s.push (s.buf.get ⟨i, Nat.lt_succ_of_le hi⟩) h.2)
        else .ok s
      else .error .bounds

/-- `append(const char*)`. -/
def appendCString (s : HeaplessString capacity) (p : List UInt8) : HeaplessString capacity :=
  (copyLoop p s).terminate

/-- `append(const char*)`, with a pointer into the own buffer. -/
def appendOwn (s : HeaplessString capacity) (i : Nat) : Call (HeaplessString capacity) := do
  -- there is no room for more passes
  let s ← copyOwnLoop (capacity + 1) i s
  return s.terminate

/-- `append`. -/
def append (s : HeaplessString capacity) : Arg → Call (HeaplessString capacity)
  | .cString none => .ok s
  | .cString (some p) => .ok (s.appendCString p)
  | .own i => s.appendOwn i
  | .char c => .ok (s.appendChar c)
  | .integer T stack x => do
      let p ← intToString T stack x
      return s.appendCString p
  | .string s' => .ok (s.appendCString s'.cStr)

/-- `push_back`. -/
def pushBack (s : HeaplessString capacity) (c : UInt8) : Call (HeaplessString capacity) :=
  s.append (.char c)

/-- `concatenate`. -/
def concatenate (s : HeaplessString capacity) (args : List Arg) : Call (HeaplessString capacity) :=
  args.foldlM append s

/-- `operator=`, of everything but a string of the same capacity, which is
copied as it is.  A pointer into the own buffer survives `clear`. -/
def assign (s : HeaplessString capacity) (arg : Arg) : Call (HeaplessString capacity) :=
  s.clear.append arg

/-- The characters `snprintf` leaves in a buffer of `size` bytes that were zero. -/
def written (size : Nat) (out : List UInt8) (i : Nat) : UInt8 := (out.take (size - 1)).getD i 0

theorem written_of_le {size i : Nat} {out : List UInt8} (h : (out.take (size - 1)).length ≤ i) :
    written size out i = 0 := by
  rw [written, List.getD_eq_getElem?_getD, List.getElem?_eq_none h]
  rfl

/-- `format`, where `snprintf` stands for what becomes of the format string. -/
def format (snprintf : List UInt8 → List UInt8) (s : HeaplessString capacity) :
    HeaplessString (max 200 capacity) :=
  let out := snprintf s.cStr
  let res := out.length
  { len := if res > 0 then min (max 200 capacity) res else 0
    buf := Vector.ofFn fun i => written (max 200 capacity) out i.val
    len_le := by
      split
      · exact Nat.min_le_left _ _
      · exact Nat.zero_le _
    buf_capacity := by
      rw [Vector.getElem_ofFn]
      exact written_of_le (Nat.le_trans (List.length_take_le _ _) (Nat.sub_le _ 1)) }

/-! ## The views -/

section Views

variable {s : HeaplessString capacity} {p : List UInt8} {c : UInt8}

theorem length_range : s.range.length = s.len := by
  have hlen := s.len_le
  rw [range, List.length_take, Vector.length_toList]
  omega

theorem range_push (h : s.len < capacity) : (s.push c h).range = s.range ++ [c] := by
  have hlen : s.len < (s.buf.toList.set s.len c).length := by
    rw [List.length_set, Vector.length_toList]
    omega
  rw [range, push, Vector.toList_set, List.take_succ_eq_append_getElem hlen,
    List.take_set_of_le (Nat.le_refl s.len), List.getElem_set_self, range]

theorem range_terminate : s.terminate.range = s.range := by
  rw [range, terminate, Vector.toList_set, List.take_set_of_le (Nat.le_refl s.len), range]

/-- A string that was appended to ends with a terminator. -/
theorem atEnd_terminate : s.terminate.atEnd = 0 := Vector.getElem_set_self _

/-- The characters at a pointer to the `i`-th one, up to the first NUL. -/
def cStrFrom (s : HeaplessString capacity) (i : Nat) : List UInt8 :=
  (s.buf.toList.drop i).takeWhile (· ≠ 0)

/-- Where the terminator is behind the last character, a pointer into the string
points to the rest of the range. -/
theorem cStrFrom_eq (hfree : NulFree s.range) (h0 : s.atEnd = 0) {i : Nat} (hi : i ≤ s.len) :
    s.cStrFrom i = s.range.drop i := by
  have hlen : s.len < s.buf.toList.length := by
    rw [Vector.length_toList]
    exact Nat.lt_succ_of_le s.len_le
  have hrest : s.buf.toList.drop s.len = 0 :: s.buf.toList.drop (s.len + 1) := by
    rw [List.drop_eq_getElem_cons hlen, Vector.getElem_toList]
    exact congrArg (· :: _) h0
  have hstop : (0 :: s.buf.toList.drop (s.len + 1)).takeWhile (· ≠ 0) = [] :=
    List.takeWhile_cons_of_neg (by simp)
  have hall : ∀ c ∈ s.range.drop i, decide (c ≠ 0) = true :=
    fun c hc => decide_eq_true (hfree c (List.mem_of_mem_drop hc))
  have hsplit : s.buf.toList.drop i = s.range.drop i ++ s.buf.toList.drop s.len := by
    rw [← List.drop_append_of_le_length (by rw [length_range]; exact hi), range,
      List.take_append_drop]
  rw [cStrFrom, hsplit, hrest, List.takeWhile_append_of_pos hall, hstop, List.append_nil]

/-- So `c_str()` is the range then. -/
theorem cStr_eq_range (hfree : NulFree s.range) (h0 : s.atEnd = 0) : s.cStr = s.range :=
  cStrFrom_eq hfree h0 (Nat.zero_le s.len)

theorem range_appendChar : (s.appendChar c).range = (s.range ++ [c]).take capacity := by
  have hlen := s.length_range
  rw [appendChar, range_terminate]
  split
  · rename_i h
    rw [range_push, List.take_of_length_le (by rw [List.length_append, hlen]; exact h)]
  · rename_i h
    have hle := s.len_le
    rw [List.take_append_of_le_length (by omega), List.take_of_length_le (by omega)]

/-- Whatever the character, the range follows `HString.append`. -/
theorem appendChar_refines {v : HString capacity} (h : s.range = v.chars) :
    (s.appendChar c).range = (v.append c).chars := by
  rw [range_appendChar, HString.append_chars, h]

theorem range_copyLoop : ∀ {p : List UInt8} {s : HeaplessString capacity}, NulFree p →
    (copyLoop p s).range = (s.range ++ p).take capacity
  | [], s, _ => by
      rw [copyLoop, List.append_nil, List.take_of_length_le (by rw [length_range]; exact s.len_le)]
  | c :: p, s, hfree => by
      have hc : c ≠ 0 := hfree c List.mem_cons_self
      have hlen := s.length_range
      rw [copyLoop]
      split
      · rw [range_copyLoop (fun c hc => hfree c (List.mem_cons_of_mem _ hc)), range_push,
          List.append_assoc, List.singleton_append]
      · rename_i h
        have hfull : ¬s.len < capacity := fun hlt => h ⟨hc, hlt⟩
        have hle := s.len_le
        rw [List.take_append_of_le_length (by omega), List.take_of_length_le (by omega)]

theorem range_appendCString (h : NulFree p) :
    (s.appendCString p).range = (s.range ++ p).take capacity := by
  rw [appendCString, range_terminate, range_copyLoop h]

/-- A loop that reads at the end of the string or behind it does not get to what
it writes. -/
theorem copyOwnLoop_behind : ∀ (fuel i : Nat) {s : HeaplessString capacity}, s.len ≤ i →
    i ≤ capacity → capacity - s.len < fuel →
      copyOwnLoop fuel i s = .ok (copyLoop (s.cStrFrom i) s)
  | 0, _, _, _, _, hfuel => absurd hfuel (Nat.not_lt_zero _)
  | fuel + 1, i, s, hlen, hi, hfuel => by
      have hlt : i < s.buf.toList.length := by
        rw [Vector.length_toList]
        exact Nat.lt_succ_of_le hi
      have hdrop : s.buf.toList.drop i =
          s.buf.get ⟨i, Nat.lt_succ_of_le hi⟩ :: s.buf.toList.drop (i + 1) := by
        rw [List.drop_eq_getElem_cons hlt, Vector.getElem_toList]
        rfl
      rw [copyOwnLoop, dif_pos hi, cStrFrom, hdrop]
      by_cases h0 : s.buf.get ⟨i, Nat.lt_succ_of_le hi⟩ = 0
      · rw [dif_neg (fun h => h.1 h0), List.takeWhile_cons_of_neg (by simp [h0]), copyLoop]
      · -- the last place of the buffer is a terminator
        have hlast : i < capacity := by
          refine Nat.lt_of_le_of_ne hi fun hend => h0 ?_
          subst hend
          exact s.buf_capacity
        have hroom : s.len < capacity := Nat.lt_of_le_of_lt hlen hlast
        have hahead : (s.push (s.buf.get ⟨i, Nat.lt_succ_of_le hi⟩) hroom).cStrFrom (i + 1) =
            (s.buf.toList.drop (i + 1)).takeWhile (· ≠ 0) := by
          rw [cStrFrom, push, Vector.toList_set, List.drop_set_of_lt (Nat.lt_succ_of_le hlen)]
        have hpush : (s.push (s.buf.get ⟨i, Nat.lt_succ_of_le hi⟩) hroom).len = s.len + 1 := rfl
        rw [dif_pos ⟨h0, hroom⟩, copyOwnLoop_behind fuel (i + 1) (by omega) hlast (by omega),
          hahead, List.takeWhile_cons_of_pos (by simp [h0]), copyLoop, dif_pos ⟨h0, hroom⟩]

/-- A loop that reads in front of the end writes the characters that it will
read later, and does not stop before the string is full. -/
theorem copyOwnLoop_spec : ∀ (fuel i : Nat) {s : HeaplessString capacity}, NulFree s.range →
    i < s.len → capacity - s.len < fuel →
      ∃ s', copyOwnLoop fuel i s = .ok s' ∧ s'.len = capacity ∧ NulFree s'.range ∧
        (capacity + i ≤ 2 * s.len → s'.range = (s.range ++ s.range.drop i).take capacity)
  | 0, _, _, _, _, hfuel => absurd hfuel (Nat.not_lt_zero _)
  | fuel + 1, i, s, hfree, hi, hfuel => by
      have hle := s.len_le
      have hrange := s.length_range
      have hget : s.range[i] = s.buf.get ⟨i, by omega⟩ := by
        simp only [range, List.getElem_take, Vector.getElem_toList]
        rfl
      have hdrop : s.range.drop i = s.buf.get ⟨i, by omega⟩ :: s.range.drop (i + 1) := by
        rw [List.drop_eq_getElem_cons (by omega), hget]
      have hne : s.buf.get ⟨i, by omega⟩ ≠ 0 := by
        rw [← hget]
        exact hfree _ (List.getElem_mem _)
      rw [copyOwnLoop, dif_pos (by omega)]
      by_cases hroom : s.len < capacity
      · have hpush := s.range_push (c := s.buf.get ⟨i, by omega⟩) hroom
        have hone : NulFree [s.buf.get ⟨i, by omega⟩] :=
          fun c hc => by rw [List.mem_singleton.mp hc]; exact hne
        have hlen : (s.push (s.buf.get ⟨i, by omega⟩) hroom).len = s.len + 1 := rfl
        obtain ⟨s', hs', hfull, hfree', hsame⟩ := copyOwnLoop_spec fuel (i + 1)
          (s := s.push (s.buf.get ⟨i, by omega⟩) hroom) (by rw [hpush]; exact hfree.append hone)
          (by omega) (by omega)
        rw [dif_pos ⟨hne, hroom⟩]
        refine ⟨s', hs', hfull, hfree', fun hfits => ?_⟩
        -- what is read last does not fit any more
        rw [hsame (by omega), hpush, List.drop_append_of_le_length (by omega), ← List.append_assoc,
          List.take_append_of_le_length (by simp; omega), hdrop, List.append_assoc,
          List.singleton_append]
      · rw [dif_neg fun h => hroom h.2]
        refine ⟨s, rfl, by omega, hfree, fun _ => ?_⟩
        rw [List.take_append_of_le_length (by omega), List.take_of_length_le (by omega)]

/-- A string that is appended to itself from its `i`-th character on gets what
it should iff that is nothing, or fills it before the loop comes to what it
wrote. -/
theorem appendOwn_spec {i : Nat} (hfree : NulFree s.range) (h0 : s.atEnd = 0) (hi : i ≤ s.len) :
    ∃ s', s.appendOwn i = .ok s' ∧ s'.atEnd = 0 ∧ NulFree s'.range ∧
      (s'.range = (s.range ++ s.range.drop i).take capacity ↔
        i = s.len ∨ capacity + i ≤ 2 * s.len) := by
  have hle := s.len_le
  have hrange := s.length_range
  rcases Nat.lt_or_eq_of_le hi with hlt | rfl
  · obtain ⟨s', hs', hfull, hfree', hsame⟩ := copyOwnLoop_spec (capacity + 1) i hfree hlt (by omega)
    refine ⟨s'.terminate, ?_, atEnd_terminate, by rw [range_terminate]; exact hfree', ?_⟩
    · rw [appendOwn, hs']
      rfl
    · rw [range_terminate]
      constructor
      · intro heq
        have hlen := congrArg List.length heq
        rw [length_range, List.length_take, List.length_append, List.length_drop] at hlen
        omega
      · rintro (hend | hfits)
        · omega
        · exact hsame hfits
  · have hnil : s.range.drop s.len = [] := List.drop_of_length_le (by omega)
    have hloop := copyOwnLoop_behind (capacity + 1) s.len (Nat.le_refl s.len) hle (by omega)
    rw [cStrFrom_eq hfree h0 (Nat.le_refl _), hnil, copyLoop] at hloop
    refine ⟨s.terminate, ?_, atEnd_terminate, by rw [range_terminate]; exact hfree, ?_⟩
    · rw [appendOwn, hloop]
      rfl
    · rw [range_terminate, hnil, List.append_nil, List.take_of_length_le (by omega)]
      exact iff_of_true rfl (Or.inl rfl)

/-- A string that is assigned the end of itself gets it. -/
theorem appendOwn_clear {i : Nat} (hfree : NulFree s.range) (h0 : s.atEnd = 0) (hi : i ≤ s.len) :
    s.clear.appendOwn i = .ok (s.clear.appendCString (s.range.drop i)) := by
  have hle := s.len_le
  have hloop := copyOwnLoop_behind (capacity + 1) i (s := s.clear) (Nat.zero_le i) (by omega)
    (Nat.lt_succ_of_le (Nat.sub_le _ _))
  have hsame : s.clear.cStrFrom i = s.range.drop i := cStrFrom_eq hfree h0 hi
  rw [appendOwn, hloop, hsame]
  rfl

/-- What is formatted is in the output if it is shorter than the capacity. -/
theorem range_format {snprintf : List UInt8 → List UInt8}
    (h : (snprintf s.cStr).length < max 200 capacity) :
    (s.format snprintf).range = snprintf s.cStr ∧ (s.format snprintf).atEnd = 0 := by
  have hlen : (s.format snprintf).len = (snprintf s.cStr).length := by
    rw [format]
    simp only
    split <;> omega
  have htake : (snprintf s.cStr).take (max 200 capacity - 1) = snprintf s.cStr :=
    List.take_of_length_le (by omega)
  have hbuf : (s.format snprintf).buf =
      Vector.ofFn fun i => written (max 200 capacity) (snprintf s.cStr) i.val := rfl
  constructor
  · rw [range, hlen, hbuf]
    apply List.ext_getElem
    · rw [List.length_take, Vector.length_toList]
      omega
    · intro i h1 h2
      rw [List.getElem_take, Vector.getElem_toList, Vector.getElem_ofFn, written, htake,
        List.getD_eq_getElem?_getD, List.getElem?_eq_getElem h2, Option.getD_some]
  · have hend : (s.format snprintf).atEnd = written (max 200 capacity) (snprintf s.cStr)
        (s.format snprintf).len := Vector.getElem_ofFn _
    rw [hend]
    exact written_of_le (by rw [htake, hlen])

/-- The first NUL of a buffer ends what `c_str()` points to. -/
theorem length_takeWhile_le {l : List UInt8} {i : Nat} (h : i < l.length) (h0 : l[i] = 0) :
    (l.takeWhile (· ≠ 0)).length ≤ i := by
  by_contra hlong
  have hi : i < (l.takeWhile (· ≠ 0)).length := Nat.lt_of_not_le hlong
  have hsame : (l.takeWhile (· ≠ 0))[i] = l[i] := (List.takeWhile_prefix _).getElem hi
  have hne := List.all_eq_true.mp List.all_takeWhile _ (List.getElem_mem hi)
  rw [hsame, h0] at hne
  exact absurd hne (by decide)

/-- `snprintf` is told a size that leaves no room for the last character, so
an output that fills the string lacks it. -/
theorem cStr_format_ne {snprintf : List UInt8 → List UInt8}
    (h : max 200 capacity ≤ (snprintf s.cStr).length) :
    (s.format snprintf).length = max 200 capacity ∧
      (s.format snprintf).cStr ≠ (snprintf s.cStr).take (max 200 capacity) := by
  constructor
  · rw [length, format]
    simp only
    rw [if_pos (by omega), Nat.min_eq_left h]
  · intro heq
    have hlen := congrArg List.length heq
    have hi : max 200 capacity - 1 < (s.format snprintf).buf.toList.length := by
      rw [Vector.length_toList]
      omega
    have hnul : (s.format snprintf).buf.toList[max 200 capacity - 1] = 0 := by
      rw [Vector.getElem_toList]
      have hbuf : (s.format snprintf).buf =
          Vector.ofFn fun i => written (max 200 capacity) (snprintf s.cStr) i.val := rfl
      simp only [hbuf, Vector.getElem_ofFn]
      exact written_of_le (List.length_take_le _ _)
    have hshort := length_takeWhile_le hi hnul
    rw [cStr, List.length_take] at hlen
    omega

/-- A NUL that is formatted ends what `c_str()` points to, and not the range. -/
theorem cStr_format_nul {snprintf : List UInt8 → List UInt8} {i : Nat}
    (h : (snprintf s.cStr).length < max 200 capacity) (hi : i < (snprintf s.cStr).length)
    (h0 : (snprintf s.cStr)[i] = 0) :
    (s.format snprintf).range = snprintf s.cStr ∧ (s.format snprintf).cStr ≠ snprintf s.cStr := by
  obtain ⟨hrange, -⟩ := range_format h
  refine ⟨hrange, fun heq => ?_⟩
  have hlen := (s.format snprintf).length_range
  rw [hrange] at hlen
  have hle := (s.format snprintf).len_le
  have hbuf : i < (s.format snprintf).buf.toList.length := by
    rw [Vector.length_toList]
    omega
  have hnul : (s.format snprintf).buf.toList[i] = 0 := by
    have hget := congrArg (·[i]?) hrange
    have hin : i < (s.format snprintf).len := by omega
    simp only [range, List.getElem?_take, if_pos hin] at hget
    rw [List.getElem?_eq_getElem hbuf, List.getElem?_eq_getElem hi, h0] at hget
    exact Option.some.inj hget
  have hshort := length_takeWhile_le hbuf hnul
  have hsame := congrArg List.length heq
  rw [cStr] at hsame
  omega

end Views

/-! ## Histories -/

/-- The characters of an argument that is not a `String`. -/
def Chars : Arg → List UInt8 → Prop
  | .cString (some p), l => l = p ∧ NulFree p
  | .char c, l => l = [c] ∧ c ≠ 0
  | .integer T stack x, l => T.Holds x ∧ intToString T stack x = .ok l
  | .cString none, _ | .own _, _ | .string _, _ => False

/-- How strings come about, each with its value: the characters appended since
it was cleared, as far as they fit.  The flag is unset while the content of the
buffer is not that of the string, which is so for a string that was cleared and
not empty, until something is appended.  Strings are only read while their flag
is set, a string is only appended to itself where that fills it up before the
loop comes to what it wrote, and what is formatted has no NUL and is shorter
than the output. -/
inductive Built : {capacity : Nat} → HeaplessString capacity → HString capacity → Bool → Prop
  | new {capacity : Nat} : Built ({} : HeaplessString capacity) {} true
  | append {capacity : Nat} {s s' : HeaplessString capacity} {v : HString capacity} {intact : Bool}
      {arg : Arg} {l : List UInt8} :
      Built s v intact → Chars arg l → s.append arg = .ok s' → Built s' (.cut (v.chars ++ l)) true
  | appendString {capacity capacity' : Nat} {s s' : HeaplessString capacity}
      {v : HString capacity} {intact : Bool} {other : HeaplessString capacity'}
      {w : HString capacity'} :
      Built s v intact → Built other w true → s.append (.string other) = .ok s' →
        Built s' (.cut (v.chars ++ w.chars)) true
  | appendOwn {capacity : Nat} {s s' : HeaplessString capacity} {v : HString capacity} {i : Nat} :
      Built s v true → i = v.chars.length ∨ i < v.chars.length ∧ capacity + i ≤ 2 * v.chars.length →
        s.append (.own i) = .ok s' → Built s' (.cut (v.chars ++ v.chars.drop i)) true
  | assignOwn {capacity : Nat} {s s' : HeaplessString capacity} {v : HString capacity} {i : Nat} :
      Built s v true → i ≤ v.chars.length → s.assign (.own i) = .ok s' →
        Built s' (.cut (v.chars.drop i)) true
  | clear {capacity : Nat} {s : HeaplessString capacity} {v : HString capacity} {intact : Bool} :
      Built s v intact → Built s.clear {} (intact && v.chars.isEmpty)
  | format {capacity : Nat} {s : HeaplessString capacity} {v : HString capacity}
      {snprintf : List UInt8 → List UInt8} :
      Built s v true → NulFree (snprintf v.chars) →
        (snprintf v.chars).length < max 200 capacity →
          Built (s.format snprintf) (.cut (snprintf v.chars)) true

section Histories

variable {s s' : HeaplessString capacity} {v : HString capacity} {intact : Bool} {arg : Arg}
  {l : List UInt8}

/-- What the buffer holds of the value. -/
structure Keeps (s : HeaplessString capacity) (v : HString capacity) (intact : Bool) : Prop where
  range : s.range = v.chars
  nulFree : NulFree v.chars
  atEnd : intact = true → s.atEnd = 0
  stale : intact = false → v.chars = [] ∧ s.cStr ≠ []

theorem Keeps.range_nulFree (h : Keeps s v intact) : NulFree s.range := by
  rw [h.range]
  exact h.nulFree

theorem Keeps.len (h : Keeps s v intact) : s.len = v.chars.length := by
  rw [← s.length_range, h.range]

theorem Keeps.cStr (h : Keeps s v true) : s.cStr = v.chars := by
  rw [cStr_eq_range h.range_nulFree (h.atEnd rfl), h.range]

/-- A string that was just appended to is intact. -/
theorem Keeps.appendCString (h : Keeps s v intact) (hl : NulFree l) :
    Keeps (s.appendCString l) (.cut (v.chars ++ l)) true where
  range := by
    rw [range_appendCString hl, h.range]
    rfl
  nulFree := (h.nulFree.append hl).take capacity
  atEnd _ := atEnd_terminate
  stale hno := by cases hno

theorem nulFree_chars (h : Chars arg l) : NulFree l := by
  cases arg with
  | cString p =>
      cases p with
      | none => exact absurd h not_false
      | some p =>
          obtain ⟨rfl, hfree⟩ := h
          exact hfree
  | char c =>
      obtain ⟨rfl, hc⟩ := h
      intro c' hc'
      rw [List.mem_singleton.mp hc']
      exact hc
  | integer T stack x =>
      obtain ⟨hx, hstr⟩ := h
      cases hstr.symm.trans (intToString_spec hx stack)
      exact IntToString.nulFree_intNumeral (by decide) (by decide) x
  | own i | string other => exact absurd h not_false

theorem Keeps.append (h : Keeps s v intact) (harg : Chars arg l) (hs' : s.append arg = .ok s') :
    Keeps s' (.cut (v.chars ++ l)) true := by
  have hl := nulFree_chars harg
  cases arg with
  | cString p =>
      cases p with
      | none => exact absurd harg not_false
      | some p =>
          obtain ⟨rfl, -⟩ := harg
          cases hs'
          exact h.appendCString hl
  | char c =>
      obtain ⟨rfl, -⟩ := harg
      cases hs'
      constructor
      case range =>
          rw [appendChar_refines h.range, HString.append_chars]
          rfl
      case nulFree => exact (h.nulFree.append hl).take capacity
      case atEnd => exact fun _ => atEnd_terminate
      case stale => exact fun hno => by cases hno
  | integer T stack x =>
      rw [HeaplessString.append, harg.2] at hs'
      cases hs'
      exact h.appendCString hl
  | own i | string other => exact absurd harg not_false

/-- The condition is just what the loop needs. -/
theorem Keeps.appendOwn {i : Nat} (h : Keeps s v true)
    (hi : i = v.chars.length ∨ i < v.chars.length ∧ capacity + i ≤ 2 * v.chars.length)
    (hs' : s.append (.own i) = .ok s') : Keeps s' (.cut (v.chars ++ v.chars.drop i)) true := by
  rw [← h.len] at hi
  obtain ⟨s₁, hs₁, hend, -, hiff⟩ :=
    appendOwn_spec (i := i) h.range_nulFree (h.atEnd rfl) (by omega)
  cases hs₁.symm.trans hs'
  constructor
  case range =>
      rw [hiff.mpr (hi.imp_right And.right), h.range]
      rfl
  case nulFree =>
      exact (h.nulFree.append fun c hc => h.nulFree c (List.mem_of_mem_drop hc)).take capacity
  case atEnd => exact fun _ => hend
  case stale => exact fun hno => by cases hno

theorem Keeps.clear (h : Keeps s v intact) : Keeps s.clear {} (intact && v.chars.isEmpty) := by
  constructor
  case range => exact List.take_zero
  case nulFree => exact fun c hc => by cases hc
  case atEnd =>
      intro hboth
      obtain ⟨rfl, hempty⟩ := (Bool.and_eq_true _ _).mp hboth
      have hnil : s.range = [] := by
        rw [h.range]
        exact List.isEmpty_iff.mp hempty
      have hlen : s.len = 0 := by
        rw [← s.length_range, hnil]
        rfl
      have h0 := h.atEnd rfl
      simp only [HeaplessString.atEnd, hlen] at h0
      exact h0
  case stale =>
      intro hnot
      refine ⟨rfl, ?_⟩
      have hold : s.cStr ≠ [] := by
        cases hintact : intact with
        | false => exact (h.stale hintact).2
        | true =>
            rw [hintact] at h hnot
            rw [h.cStr]
            intro hnil
            rw [hnil] at hnot
            cases hnot
      exact hold

theorem Keeps.assignOwn {i : Nat} (h : Keeps s v true) (hi : i ≤ v.chars.length)
    (hs' : s.assign (.own i) = .ok s') : Keeps s' (.cut (v.chars.drop i)) true := by
  rw [← h.len] at hi
  cases (appendOwn_clear h.range_nulFree (h.atEnd rfl) hi).symm.trans hs'
  rw [h.range]
  exact h.clear.appendCString fun c hc => h.nulFree c (List.mem_of_mem_drop hc)

theorem Keeps.format {snprintf : List UInt8 → List UInt8} (h : Keeps s v true)
    (hfree : NulFree (snprintf v.chars)) (hlen : (snprintf v.chars).length < max 200 capacity) :
    Keeps (s.format snprintf) (.cut (snprintf v.chars)) true := by
  rw [← h.cStr] at hfree hlen ⊢
  obtain ⟨hrange, hend⟩ := range_format hlen
  have hcut : (HString.cut (snprintf s.cStr) : HString (max 200 capacity)).chars =
      snprintf s.cStr := List.take_of_length_le (Nat.le_of_lt hlen)
  constructor
  case range => rw [hrange, hcut]
  case nulFree => rw [hcut]; exact hfree
  case atEnd => exact fun _ => hend
  case stale => exact fun hno => by cases hno

theorem Built.keeps {capacity : Nat} {s : HeaplessString capacity} {v : HString capacity}
    {intact : Bool} (h : Built s v intact) : Keeps s v intact := by
  induction h with
  | new =>
      constructor
      case range => exact List.take_zero
      case nulFree => exact fun c hc => by cases hc
      case atEnd => exact fun _ => Vector.getElem_replicate _
      case stale => exact fun hno => by cases hno
  | append _ harg hs' ih => exact ih.append harg hs'
  | appendString _ _ hs' ih ih' =>
      cases hs'
      rw [ih'.cStr]
      exact ih.appendCString ih'.nulFree
  | appendOwn _ hi hs' ih => exact ih.appendOwn hi hs'
  | assignOwn _ hi hs' ih => exact ih.assignOwn hi hs'
  | clear _ ih => exact ih.clear
  | format _ hfree hlen ih => exact ih.format hfree hlen

/-- An argument that `append` is promised, and what it adds. -/
def Denotes (arg : Arg) (l : List UInt8) : Prop :=
  Chars arg l ∨ ∃ (capacity' : Nat) (other : HeaplessString capacity') (w : HString capacity'),
    arg = .string other ∧ Built other w true ∧ l = w.chars

/-- `append` returns. -/
theorem append_returns (h : Denotes arg l) : Call.Returns (s.append arg) := by
  rcases h with h | ⟨capacity', other, w, rfl, -, -⟩
  · cases arg with
    | cString p =>
        cases p with
        | none => exact absurd h not_false
        | some p => exact ⟨_, rfl⟩
    | char c => exact ⟨_, rfl⟩
    | integer T stack x =>
        rw [HeaplessString.append, h.2]
        exact ⟨_, rfl⟩
    | own i | string other => exact absurd h not_false
  · exact ⟨_, rfl⟩

theorem Built.appendAny (h : Built s v intact) (harg : Denotes arg l)
    (hs' : s.append arg = .ok s') : Built s' (.cut (v.chars ++ l)) true := by
  rcases harg with harg | ⟨capacity', other, w, rfl, hother, rfl⟩
  · exact .append h harg hs'
  · exact .appendString h hother hs'

/-- An assigned string is as good as a new one. -/
theorem Built.assign (h : Built s v intact) (harg : Denotes arg l)
    (hs' : s.assign arg = .ok s') : Built s' (.cut l) true := h.clear.appendAny harg hs'

/-- `concatenate` appends its arguments one by one. -/
theorem Built.concatenate : ∀ {args : List (Arg × List UInt8)} {s s' : HeaplessString capacity}
    {v : HString capacity}, Built s v true → (∀ a ∈ args, Denotes a.1 a.2) →
      s.concatenate (args.map Prod.fst) = .ok s' →
        Built s' (.cut (v.chars ++ (args.map Prod.snd).flatten)) true
  | [], s, s', v, h, _, hs' => by
      cases hs'
      rw [List.map_nil, List.flatten_nil, List.append_nil, HString.cut_chars]
      exact h
  | a :: args, s, s', v, h, hargs, hs' => by
      rw [HeaplessString.concatenate, List.map_cons, List.foldlM_cons] at hs'
      obtain ⟨s₁, hs₁, hs'⟩ := Call.bind_eq_ok.mp hs'
      have h₁ : Built s₁ (.cut (v.chars ++ a.2)) true :=
        h.appendAny (hargs a List.mem_cons_self) hs₁
      have hrest := Built.concatenate h₁ (fun b hb => hargs b (List.mem_cons_of_mem _ hb)) hs'
      rw [HString.cut_cut_append, List.append_assoc] at hrest
      exact hrest

/-- Length and range are those of the value, and so is what `c_str()` points
to, unless the string was cleared when it was not empty and nothing was
appended since. -/
theorem views_agree (h : Built s v intact) :
    s.length ≤ capacity ∧ s.length = v.chars.length ∧ s.range = v.chars ∧
      (s.cStr = v.chars ↔ intact = true) := by
  have hkeeps := h.keeps
  refine ⟨s.len_le, ?_, hkeeps.range, ?_⟩
  · rw [← hkeeps.range, length_range]
    rfl
  · cases hintact : intact with
    | true =>
        rw [hintact] at hkeeps
        exact ⟨fun _ => rfl, fun _ => hkeeps.cStr⟩
    | false =>
        obtain ⟨hnil, hne⟩ := hkeeps.stale hintact
        rw [hnil]
        exact ⟨fun hcstr => absurd hcstr hne, fun hno => by cases hno⟩

/-- Five characters of which four fit. -/
theorem views_agree_full :
    (({} : HeaplessString 4).appendCString [0x61, 0x62, 0x63, 0x64, 0x65]).cStr =
      [0x61, 0x62, 0x63, 0x64] := by
  have harg : Chars (.cString (some [0x61, 0x62, 0x63, 0x64, 0x65]))
      [0x61, 0x62, 0x63, 0x64, 0x65] := ⟨rfl, by decide⟩
  exact (views_agree (.append .new harg rfl)).2.2.2.mpr rfl

/-- A string that was cleared, formatted ones of 200 characters and with a NUL,
and one that was appended to itself. -/
theorem views_disagree :
    (({} : HeaplessString 4).appendCString [0x61]).clear.length = 0 ∧
      (({} : HeaplessString 4).appendCString [0x61]).clear.cStr = [0x61] ∧
      (({} : HeaplessString 4).format fun _ => List.replicate 200 0x61).length = 200 ∧
      (({} : HeaplessString 4).format fun _ => List.replicate 200 0x61).cStr ≠
        List.replicate 200 0x61 ∧
      (({} : HeaplessString 8).format fun _ => [0x61, 0, 0x62]).range = [0x61, 0, 0x62] ∧
      (({} : HeaplessString 8).format fun _ => [0x61, 0, 0x62]).cStr ≠ [0x61, 0, 0x62] ∧
      Call.ReturnsWith ((({} : HeaplessString 8).appendCString [0x61, 0x62]).append (.own 0))
        fun s => s.range = [0x61, 0x62, 0x61, 0x62, 0x61, 0x62, 0x61, 0x62] := by
  have hfull : (List.replicate 200 (0x61 : UInt8)).length = 200 := List.length_replicate
  have hformat : (({} : HeaplessString 4).format fun _ => List.replicate 200 0x61).length = 200 ∧
      (({} : HeaplessString 4).format fun _ => List.replicate 200 0x61).cStr ≠
        (List.replicate 200 0x61).take 200 := cStr_format_ne (Nat.le_of_eq hfull.symm)
  rw [List.take_of_length_le (Nat.le_of_eq hfull)] at hformat
  have hnul : (({} : HeaplessString 8).format fun _ => [0x61, 0, 0x62]).range = [0x61, 0, 0x62] ∧
      (({} : HeaplessString 8).format fun _ => [0x61, 0, 0x62]).cStr ≠ [0x61, 0, 0x62] :=
    cStr_format_nul (i := 1) (by decide) (by decide) rfl
  exact ⟨rfl, by decide, hformat.1, hformat.2, hnul.1, hnul.2, by decide⟩

end Histories

end HeaplessString

end UavcanAdapter
