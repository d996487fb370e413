/-
# `Base.Fill` — arrays that are filled piece by piece

`fill` writes data into an array from an index on, as far as the array goes,
and returns what did not fit.  What an array holds is a list it begins with;
filling it behind that list extends the list.
-/
import UavcanAdapter.Base.Bytes

namespace Base

section Fill

variable {α : Type} {n : Nat}

/-- `for (; i < n && …; i++) v[i] = data[…]`: the array, and the data left. -/
def fill : Vector α n → Nat → List α → Vector α n × List α
  | v, _, [] => (v, [])
  | v, i, b :: data =>
      if i < n then fill (v.setIfInBounds i b) (i + 1) data else (v, b :: data)

variable {v : Vector α n} {i : Nat} {bytes data : List α}

theorem fill_snd (v : Vector α n) (i : Nat) (data : List α) :
    (fill v i data).2 = data.drop (n - i) := by
  induction data generalizing v i with
  | nil => exact List.drop_nil.symm
  | cons b data ih =>
      rw [fill]
      split
      · rename_i hi
        rw [ih, show n - i = n - (i + 1) + 1 by omega, List.drop_succ_cons]
      · rename_i hi
        rw [show n - i = 0 by omega, List.drop_zero]

theorem fill_of_le (h : n ≤ i) : fill v i data = (v, data) := by
  cases data with
  | nil => rfl
  | cons b data => exact if_neg (by omega)

/-- What the array holds grows by what fits. -/
theorem prefix_fill (data : List α) (hbytes : bytes <+: v.toList) (hi : bytes.length = i) :
    bytes ++ data.take (n - i) <+: (fill v i data).1.toList := by
  induction data generalizing v i bytes with
  | nil =>
      rw [List.take_nil, List.append_nil]
      exact hbytes
  | cons b data ih =>
      have hle : i ≤ n := by simpa [hi] using hbytes.length_le
      rcases Nat.lt_or_ge i n with hlt | hge
      · have hset : bytes ++ [b] <+: (v.setIfInBounds i b).toList := by
          obtain ⟨rest, hrest⟩ := hbytes
          rw [Vector.toList_setIfInBounds, ← hrest, ← hi, List.set_append_right _ _ le_rfl,
            Nat.sub_self]
          have hpos : rest ≠ [] := by
            rintro rfl
            have hlen := congrArg List.length hrest
            rw [List.append_nil, Vector.length_toList] at hlen
            omega
          obtain ⟨x, rest, rfl⟩ := List.exists_cons_of_ne_nil hpos
          rw [List.set_cons_zero]
          exact (List.prefix_append_right_inj bytes).mpr (List.prefix_append [b] rest)
        have hrest := ih hset (i := i + 1) (by rw [List.length_append, hi]; rfl)
        rw [fill, if_pos hlt, show n - i = n - (i + 1) + 1 by omega, List.take_succ_cons]
        rwa [List.append_assoc, List.singleton_append] at hrest
      · rw [fill_of_le hge, Nat.sub_eq_zero_of_le hge, List.take_zero, List.append_nil]
        exact hbytes

/-- The array and what did not fit into it hold everything. -/
theorem prefix_fill_append (data : List α) (hbytes : bytes <+: v.toList) (hi : bytes.length = i) :
    bytes ++ data <+: (fill v i data).1.toList ++ (fill v i data).2 := by
  have hbegins := prefix_fill data hbytes hi
  have hle : i ≤ n := by simpa [hi] using hbytes.length_le
  rw [fill_snd]
  rcases Nat.le_total data.length (n - i) with hfits | hmore
  · rw [List.take_of_length_le hfits] at hbegins
    exact hbegins.trans (List.prefix_append _ _)
  · have hfull := hbegins.eq_of_length (by
      rw [List.length_append, List.length_take, Vector.length_toList]
      omega)
    rw [← hfull, List.append_assoc, List.take_append_drop]

end Fill

end Base
