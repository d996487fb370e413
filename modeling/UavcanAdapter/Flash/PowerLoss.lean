/-
# `Flash.PowerLoss` — flash operations that are cut off

On an atomic controller an operation is done as a whole, or not at all and
then with an error flag.  Losing power after some number of operations is a
controller of this kind (`powerLoss`): what comes later is not done, and
whatever the program makes of that no longer matters to the flash.

An area of the flash that was erased and then written from its start holds
a prefix of what was to be written, with blanks behind it (`Filled`).
-/
import UavcanAdapter.Flash.Writer

namespace UavcanAdapter

open Base

namespace Fpec

/-- Every operation is done, or changes nothing and raises the flag. -/
structure Atomic (hw : Fpec) : Prop where
  erase : ∀ f a, hw.erase f a = (erasePage hw.page 0xFF f.mem a, false) ∨
    hw.erase f a = (f.mem, true)
  program : ∀ f a lo hi, hw.program f a lo hi = (store f.mem a [lo, hi], false) ∨
    hw.program f a lo hi = (f.mem, true)

/-- The power goes off after the first `n` operations of the history. -/
def powerLoss (n : Nat) (hw : Fpec) : Fpec where
  pageSize := hw.pageSize
  erase f a := if f.ops.length < n then hw.erase f a else (f.mem, true)
  program f a lo hi := if f.ops.length < n then hw.program f a lo hi else (f.mem, true)

theorem atomic_stm32f1 (pageSize : Nat) : (stm32f1 pageSize).Atomic where
  erase _ _ := Or.inl rfl
  program f a lo hi := by
    simp only [stm32f1]
    split
    · exact Or.inl rfl
    · exact Or.inr rfl

theorem Atomic.powerLoss {hw : Fpec} (h : hw.Atomic) (n : Nat) : (powerLoss n hw).Atomic where
  erase f a := by
    simp only [Fpec.powerLoss]
    split
    · exact h.erase f a
    · exact Or.inr rfl
  program f a lo hi := by
    simp only [Fpec.powerLoss]
    split
    · exact h.program f a lo hi
    · exact Or.inr rfl

end Fpec

/-! ## An area that is filled from its start -/

/-- The `size` bytes at `address` are `bs` and blanks behind it. -/
def Flash.Filled (f : Flash) (address size : Nat) (bs : List UInt8) : Prop :=
  ∀ i < size, f.mem (address + i) = bs.getD i 0xFF

section Filled

variable {f f' : Flash} {address size : Nat} {bs p : List UInt8}

/-- Bytes written right behind what is there. -/
theorem Flash.Filled.append (h : f.Filled address size bs)
    (hin : ∀ i v, p[i]? = some v → f'.mem (address + bs.length + i) = v)
    (hout : ∀ x, x < address + bs.length ∨ address + bs.length + p.length ≤ x →
      f'.mem x = f.mem x) : f'.Filled address size (bs ++ p) := by
  intro i hi
  rw [List.getD_eq_getElem?_getD]
  rcases Nat.lt_or_ge i bs.length with hlt | hge
  · rw [hout _ (Or.inl (by omega)), h i hi, List.getElem?_append_left hlt,
      List.getD_eq_getElem?_getD]
  rw [List.getElem?_append_right hge]
  rcases Nat.lt_or_ge (i - bs.length) p.length with hlt | hge'
  · have hget := List.getElem?_eq_getElem hlt
    have haddr : address + i = address + bs.length + (i - bs.length) := by omega
    rw [haddr, hin _ _ hget, hget]
    rfl
  · rw [hout _ (Or.inr (by omega)), h i hi, List.getD_eq_getElem?_getD,
      List.getElem?_eq_none hge, List.getElem?_eq_none hge']

theorem Flash.Filled.store (h : f.Filled address size bs)
    (hmem : f'.mem = store f.mem (address + bs.length) p) : f'.Filled address size (bs ++ p) := by
  apply h.append
  · intro i v hv
    rw [hmem, store_add hv]
  · rintro x (hlt | hge)
    · rw [hmem, store_of_lt hlt]
    · rw [hmem, store_of_ge hge]

end Filled

/-! ## The loops of the writer on an atomic controller -/

namespace FlashWriter

variable {hw : Fpec} {address size : Nat} {c : Chunk} {bs : List UInt8}

theorem programAt_atomic (ha : hw.Atomic) (a : Nat) (lo hi : UInt8) (f : Flash) :
    programAt hw a lo hi f
        = ({ mem := store f.mem a [lo, hi], ops := f.ops ++ [.program a] }, .ok ()) ∨
      programAt hw a lo hi f
        = ({ mem := f.mem, ops := f.ops ++ [.program a] }, .error .assertion) := by
  rcases ha.program f a lo hi with h | h
  · exact Or.inl (by simp [programAt, h, Call.assert])
  · exact Or.inr (by simp [programAt, h, Call.assert])

theorem erasePageAt_atomic (ha : hw.Atomic) (a : Nat) (f : Flash) :
    erasePageAt hw a f
        = ({ mem := erasePage hw.page 0xFF f.mem a, ops := f.ops ++ [.erase a] }, .ok ()) ∨
      erasePageAt hw a f
        = ({ mem := f.mem, ops := f.ops ++ [.erase a] }, .error .assertion) := by
  rcases ha.erase f a with h | h
  · exact Or.inl (by simp [erasePageAt, h, Call.assert])
  · exact Or.inr (by simp [erasePageAt, h, Call.assert])

/-- One more halfword. -/
theorem take_halfword {i : Nat} (h : 2 * i + 1 < c.bytes.length) :
    c.bytes.take (2 * (i + 1))
      = c.bytes.take (2 * i) ++ [c.byteAt (2 * i), c.byteAt (2 * i + 1)] := by
  have hlo : c.byteAt (2 * i) = c.bytes[2 * i] :=
    Chunk.byteAt_of_lt (by simp only [Chunk.size]; omega)
  have hhi : c.byteAt (2 * i + 1) = c.bytes[2 * i + 1] := Chunk.byteAt_of_lt h
  have h2 : 2 * (i + 1) = 2 * i + 1 + 1 := by omega
  rw [h2, List.take_succ_eq_append_getElem h, List.take_succ_eq_append_getElem (by omega), hlo,
    hhi, List.append_assoc]
  rfl

/-- Where the program loop stops, on its own or cut off, the area is filled
with a whole number of halfwords more. -/
theorem programLoop_filled (ha : hw.Atomic) : ∀ (n i : Nat) (f : Flash),
    f.Filled address size (bs ++ c.bytes.take (2 * i)) → 2 * (i + n) = c.bytes.length →
      ∃ j, (programLoop hw (address + bs.length) c n i f).1.Filled address size
          (bs ++ c.bytes.take (2 * j)) ∧
        ((programLoop hw (address + bs.length) c n i f).2 = .ok () → j = i + n)
  | 0, i, f, hf, _ => ⟨i, hf, fun _ => rfl⟩
  | n + 1, i, f, hf, hlen => by
      have haddr : address + bs.length + 2 * i
          = address + (bs ++ c.bytes.take (2 * i)).length := by
        rw [List.length_append, List.length_take, Nat.min_eq_left (by omega)]
        omega
      rw [programLoop]
      rcases programAt_atomic ha (address + bs.length + 2 * i) (c.byteAt (2 * i))
        (c.byteAt (2 * i + 1)) f with hdone | hcut
      · rw [hdone]
        obtain ⟨j, hj, hok⟩ := programLoop_filled ha n (i + 1)
          { mem := store f.mem (address + bs.length + 2 * i)
              [c.byteAt (2 * i), c.byteAt (2 * i + 1)],
            ops := f.ops ++ [.program (address + bs.length + 2 * i)] }
          (by
            rw [take_halfword (by omega), ← List.append_assoc]
            exact hf.store (by rw [haddr])) (by omega)
        refine ⟨j, hj, fun h => ?_⟩
        rw [hok h]
        omega
      · rw [hcut]
        refine ⟨i, hf, fun h => ?_⟩
        cases h

/-- The erase loop, on its own or cut off, has walked over some of the
area. -/
theorem eraseLoop_atomic (ha : hw.Atomic) : ∀ (n pos : Nat) (f : Flash),
    ∃ j, (eraseLoop hw n pos f).1.mem = eraseDirty hw.page 0xFF f.mem pos j ∧
      ((eraseLoop hw n pos f).2 = .ok true → j = n) ∧ (eraseLoop hw n pos f).2 ≠ .ok false
  | 0, pos, f => ⟨0, eraseDirty_zero.symm, fun _ => rfl, fun h => by cases h⟩
  | n + 1, pos, f => by
      rw [eraseLoop]
      split
      · rename_i hdirty
        rcases erasePageAt_atomic ha pos f with hdone | hcut
        · have hblank : erasePage hw.page 0xFF f.mem pos pos = 0xFF := if_pos rfl
          rw [hdone]
          simp only [hblank, ne_eq, not_true_eq_false, if_false]
          obtain ⟨j, hj, hok, hne⟩ := eraseLoop_atomic ha n (pos + 1)
            { mem := erasePage hw.page 0xFF f.mem pos, ops := f.ops ++ [.erase pos] }
          refine ⟨j + 1, ?_, fun h => by rw [hok h], hne⟩
          rw [hj, eraseDirty_succ_of_ne hdirty]
        · rw [hcut]
          refine ⟨0, eraseDirty_zero.symm, ?_, ?_⟩
          · intro h
            cases h
          · intro h
            cases h
      · rename_i hclean
        obtain ⟨j, hj, hok, hne⟩ := eraseLoop_atomic ha n (pos + 1) f
        refine ⟨j + 1, ?_, fun h => by rw [hok h], hne⟩
        rw [hj, eraseDirty_succ_of_eq (not_not.mp hclean)]

theorem erase_fst (hw : Fpec) (addr howMuch : Nat) (f : Flash) :
    (erase hw addr howMuch f).1
      = (eraseLoop hw (wrap32 (addr + howMuch) - addr) addr f).1 := by
  rw [erase]
  split
  · rename_i heq
    rw [heq]
  · rfl

/-- An erase, on its own or cut off, leaves cells of one page as they were,
or blank. -/
theorem erase_cut (ha : hw.Atomic) (addr howMuch : Nat) (f : Flash) {n : Nat}
    (hpage : ∀ i < n, hw.page (address + i) = hw.page address) :
    (∀ i < n, (erase hw addr howMuch f).1.mem (address + i) = f.mem (address + i)) ∨
      ∀ i < n, (erase hw addr howMuch f).1.mem (address + i) = 0xFF := by
  obtain ⟨j, hj, -⟩ := eraseLoop_atomic ha (wrap32 (addr + howMuch) - addr) addr f
  rw [erase_fst, hj]
  by_cases hd : DirtyIn hw.page 0xFF f.mem addr j address
  · right
    intro i hi
    apply eraseDirty_of_dirty
    rwa [DirtyIn, hpage i hi]
  · left
    intro i hi
    apply eraseDirty_of_clean
    rwa [DirtyIn, hpage i hi]

/-- A write, on its own or cut off, fills the area with a whole number of
halfwords more; one that returns has put all the data there. -/
theorem write_cut (ha : hw.Atomic) {f : Flash} (hf : f.Filled address size bs)
    (heven : c.bytes.length % 2 = 0) (hlt : c.bytes.length + 1 < 2 ^ 32) :
    (∃ j, (write hw (address + bs.length) c c.bytes.length f).1.Filled address size
      (bs ++ c.bytes.take (2 * j))) ∧
    ∀ r, (write hw (address + bs.length) c c.bytes.length f).2 = .ok r →
      (write hw (address + bs.length) c c.bytes.length f).1.Filled address size
        (bs ++ c.bytes) := by
  have hnone : bs ++ c.bytes.take (2 * 0) = bs := by simp
  have hhalf : wrap32 (c.bytes.length + 1) / 2 = c.bytes.length / 2 := by
    rw [wrap32_of_lt hlt]
    omega
  rw [write]
  split
  · refine ⟨⟨0, by rwa [hnone]⟩, fun r h => ?_⟩
    cases h
  have hstart : f.Filled address size (bs ++ c.bytes.take (2 * 0)) := by rwa [hnone]
  obtain ⟨j, hj, hall⟩ := programLoop_filled ha (c.bytes.length / 2) 0 f hstart (by omega)
  rw [hhalf]
  rcases hp : programLoop hw (address + bs.length) c (c.bytes.length / 2) 0 f with ⟨g, e | u⟩
  · rw [hp] at hj
    refine ⟨⟨j, hj⟩, fun r h => ?_⟩
    cases h
  · rw [hp] at hj hall
    refine ⟨⟨j, hj⟩, fun r _ => ?_⟩
    rw [hall rfl, List.take_of_length_le (by omega)] at hj
    exact hj

end FlashWriter

end UavcanAdapter
