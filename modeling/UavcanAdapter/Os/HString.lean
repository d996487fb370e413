/-
# `Os.HString` — the value of a `heapless::String`

A string as the rest of the development sees it: its characters, of which
there are at most as many as the capacity allows.  What does not fit is
dropped at the end.  How the class keeps the characters in its buffer is the
subject of `Os.HeaplessString`.
-/
import Mathlib.Tactic

namespace UavcanAdapter

/-- No character ends the string early. -/
def NulFree (l : List UInt8) : Prop := ∀ c ∈ l, c ≠ 0

instance decNulFree (l : List UInt8) : Decidable (NulFree l) :=
  List.decidableBAll (fun c => c ≠ 0) l

theorem NulFree.append {l r : List UInt8} (hl : NulFree l) (hr : NulFree r) : NulFree (l ++ r) := by
  intro c hc
  rcases List.mem_append.mp hc with hc | hc
  · exact hl c hc
  · exact hr c hc

theorem NulFree.take {l : List UInt8} (h : NulFree l) (n : Nat) : NulFree (l.take n) :=
  fun c hc => h c (List.mem_of_mem_take hc)

/-- `heapless::String`: at most `capacity` characters. -/
structure HString (capacity : Nat) where
  chars : List UInt8 := []
  length_le : chars.length ≤ capacity := by simp
deriving DecidableEq

namespace HString

variable {capacity : Nat}

/-- The empty string. -/
def empty : HString capacity := ⟨[], Nat.zero_le capacity⟩

@[simp] theorem empty_chars : (empty : HString capacity).chars = [] := rfl

/-- `append(char)` and `push_back`: a full string stays as it is. -/
def append (s : HString capacity) (c : UInt8) : HString capacity :=
  if h : s.chars.length < capacity then ⟨s.chars ++ [c], by simp; omega⟩ else s

theorem append_chars (s : HString capacity) (c : UInt8) :
    (s.append c).chars = (s.chars ++ [c]).take capacity := by
  unfold append
  split
  · rw [List.take_of_length_le (by simp; omega)]
  · rename_i h
    have hlen : s.chars.length = capacity := by
      have := s.length_le
      omega
    rw [List.take_append_of_le_length (by omega), List.take_of_length_le (by omega)]

/-- What was dropped before is dropped at the end as well. -/
theorem take_take_append {n : Nat} (l r : List UInt8) :
    (l.take n ++ r).take n = (l ++ r).take n := by
  have hrest : n - (l.take n).length = n - l.length := by
    rw [List.length_take]
    omega
  rw [List.take_append, List.take_take, Nat.min_self, hrest, ← List.take_append]

/-- A string that is appended to character by character keeps what fits. -/
theorem foldl_append_chars : ∀ (l : List UInt8) (s : HString capacity),
    (l.foldl append s).chars = (s.chars ++ l).take capacity
  | [], s => by
      rw [List.foldl_nil, List.append_nil, List.take_of_length_le s.length_le]
  | c :: l, s => by
      rw [List.foldl_cons, foldl_append_chars l, append_chars, take_take_append,
        List.append_assoc, List.singleton_append]

/-- The characters of `l` that fit into a string. -/
def cut (l : List UInt8) : HString capacity := ⟨l.take capacity, List.length_take_le capacity l⟩

theorem cut_chars (s : HString capacity) : cut s.chars = s := by
  have hfit : s.chars.take capacity = s.chars := List.take_of_length_le s.length_le
  cases s
  unfold cut
  congr

theorem cut_cut_append (l r : List UInt8) :
    (cut ((cut l : HString capacity).chars ++ r) : HString capacity) = cut (l ++ r) := by
  have hchars : ((l.take capacity) ++ r).take capacity = (l ++ r).take capacity :=
    take_take_append l r
  unfold cut
  congr

end HString

end UavcanAdapter
