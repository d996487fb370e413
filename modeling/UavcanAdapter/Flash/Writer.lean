/-
# `Flash.Writer` — programming the internal flash

`class FlashWriter` in its page-erase variant, over a flash controller whose
outcomes are left open: each operation leaves some memory behind and may
raise an error flag, which fails an assertion in `waitReady`.  Every
function returns the flash it leaves also when it does not return to its
caller, with the operations issued so far in `ops`.

`Fpec.Lawful` says what a working controller does.  Two groups of lemmas
follow the loops: which operations they issue on any controller, and what
they do to the memory on a lawful one.
-/
import UavcanAdapter.Base.PagedFlash
import UavcanAdapter.Bootloader.Storage

namespace UavcanAdapter

open Base

/-- `FLASH_BASE`. -/
def flashBase : Nat := 0x08000000

/-- What the flash controller is told to do. -/
inductive FlashOp
  /-- erase the page of an address -/
  | erase (addr : Nat)
  /-- program a halfword -/
  | program (addr : Nat)
deriving DecidableEq, Repr

/-- The memory, and the history of the operations on it. -/
structure Flash where
  mem : Nat → UInt8
  ops : List FlashOp := []

/-- A flash controller: its page size, and the memory and the error flag
after an operation, which may depend on all that happened before. -/
structure Fpec where
  pageSize : Nat
  erase : Flash → Nat → (Nat → UInt8) × Bool
  program : Flash → Nat → UInt8 → UInt8 → (Nat → UInt8) × Bool

namespace Fpec

/-- The page of an address; pages are counted from the start of the flash. -/
def page (hw : Fpec) (a : Nat) : Int := ((a : Int) - flashBase) / hw.pageSize

/-- What a controller that works does to the memory: a page erase sets the
page to `0xFF`, programming a halfword changes nothing else. -/
structure Lawful (hw : Fpec) : Prop where
  erase : ∀ f a, (hw.erase f a).1 = erasePage hw.page 0xFF f.mem a
  program : ∀ f a lo hi x, x ≠ a → x ≠ a + 1 → (hw.program f a lo hi).1 x = f.mem x

/-- The controller of the STM32F1: a halfword that is not erased can only be
programmed to zero. -/
def stm32f1 (pageSize : Nat) : Fpec where
  pageSize := pageSize
  erase f a := (erasePage (fun x : Nat => ((x : Int) - flashBase) / pageSize) 0xFF f.mem a, false)
  program f a lo hi :=
    if (f.mem a = 0xFF ∧ f.mem (a + 1) = 0xFF) ∨ (lo = 0 ∧ hi = 0) then
      (store f.mem a [lo, hi], false)
    else (f.mem, true)

theorem lawful_stm32f1 (pageSize : Nat) : (stm32f1 pageSize).Lawful where
  erase _ _ := rfl
  program f a lo hi x hx hx' := by
    simp only [stm32f1]
    split
    · rcases Nat.lt_or_ge x a with hlt | hge
      · exact store_of_lt hlt
      · exact store_of_ge (by simp; omega)
    · rfl

end Fpec

namespace FlashWriter

variable (hw : Fpec)

/-- One page erase, up to `waitReady`. -/
def erasePageAt (a : Nat) (f : Flash) : Flash × Call Unit :=
  let r := hw.erase f a
  ({ mem := r.1, ops := f.ops ++ [.erase a] }, Call.assert (r.2 = false))

/-- The store of one halfword, up to `waitReady`. -/
def programAt (a : Nat) (lo hi : UInt8) (f : Flash) : Flash × Call Unit :=
  let r := hw.program f a lo hi
  ({ mem := r.1, ops := f.ops ++ [.program a] }, Call.assert (r.2 = false))

/-- The loop of `erase`, with `n` positions to go from `pos` on. -/
def eraseLoop : Nat → Nat → Flash → Flash × Call Bool
  | 0, _, f => (f, .ok true)
  | n + 1, pos, f =>
      if f.mem pos ≠ 0xFF then
        match erasePageAt hw pos f with
        | (f, .error e) => (f, .error e)
        | (f, .ok ()) => if f.mem pos ≠ 0xFF then (f, .ok false) else eraseLoop n (pos + 1) f
      else eraseLoop n (pos + 1) f

/-- `FlashWriter::erase`. -/
def erase (addr howMuch : Nat) (f : Flash) : Flash × Call Bool :=
  match eraseLoop hw (wrap32 (addr + howMuch) - addr) addr f with
  | (f, .ok true) => (f, .ok ((List.range howMuch).all fun i => f.mem (addr + i) == 0xFF))
  | r => r

/-- The loop of `write`, with `n` halfwords to go from the `i`-th on. -/
def programLoop (addr : Nat) (c : Chunk) : Nat → Nat → Flash → Flash × Call Unit
  | 0, _, f => (f, .ok ())
  | n + 1, i, f =>
      match programAt hw (addr + 2 * i) (c.byteAt (2 * i)) (c.byteAt (2 * i + 1)) f with
      | (f, .ok ()) => programLoop addr c n (i + 1) f
      | r => r

/-- `FlashWriter::write`, of the first `howMuch` bytes of a chunk. -/
def write (addr : Nat) (c : Chunk) (howMuch : Nat) (f : Flash) : Flash × Call Bool :=
  if addr % 2 ≠ 0 ∨ c.addr % 2 ≠ 0 ∨ addr = 0 ∨ c.addr = 0 then (f, .error .assertion)
  else
    match programLoop hw addr c (wrap32 (howMuch + 1) / 2) 0 f with
    | (f, .ok ()) => (f, .ok ((List.range howMuch).all fun i => c.byteAt i == f.mem (addr + i)))
    | (f, .error e) => (f, .error e)

variable {hw} {f f' : Flash} {addr : Nat} {c : Chunk}

/-! ## The operations issued -/

/-- The erase loop issues page erases at positions it visits. -/
theorem eraseLoop_ops : ∀ (n pos : Nat) (f : Flash), ∀ op ∈ (eraseLoop hw n pos f).1.ops,
    op ∈ f.ops ∨ ∃ a, pos ≤ a ∧ a < pos + n ∧ op = .erase a
  | 0, _, _, _, h => Or.inl h
  | n + 1, pos, f, op, h => by
      have hnext : ∀ g : Flash, op ∈ (eraseLoop hw n (pos + 1) g).1.ops →
          op ∈ g.ops ∨ ∃ a, pos ≤ a ∧ a < pos + (n + 1) ∧ op = .erase a := by
        intro g hg
        rcases eraseLoop_ops n (pos + 1) g op hg with hold | ⟨a, ha, ha', rfl⟩
        · exact Or.inl hold
        · exact Or.inr ⟨a, by omega, by omega, rfl⟩
      have hhere : op ∈ (erasePageAt hw pos f).1.ops →
          op ∈ f.ops ∨ ∃ a, pos ≤ a ∧ a < pos + (n + 1) ∧ op = .erase a := by
        intro hop
        rcases List.mem_append.mp hop with hold | hnew
        · exact Or.inl hold
        · exact Or.inr ⟨pos, le_rfl, by omega, List.mem_singleton.mp hnew⟩
      rw [eraseLoop] at h
      split at h
      · rcases hp : erasePageAt hw pos f with ⟨g, e | u⟩
        · rw [hp] at h hhere
          exact hhere h
        · rw [hp] at h hhere
          simp only at h
          split at h
          · exact hhere h
          · rcases hnext g h with hg | hg
            · exact hhere hg
            · exact Or.inr hg
      · exact hnext f h

theorem erase_ops {howMuch : Nat} {op : FlashOp} (hw32 : addr + howMuch < 2 ^ 32)
    (h : op ∈ (erase hw addr howMuch f).1.ops) :
    op ∈ f.ops ∨ ∃ a, addr ≤ a ∧ a < addr + howMuch ∧ op = .erase a := by
  have hn : wrap32 (addr + howMuch) - addr = howMuch := by rw [wrap32_of_lt hw32]; omega
  have hops : op ∈ (eraseLoop hw howMuch addr f).1.ops := by
    rw [erase, hn] at h
    split at h
    · rename_i heq
      rw [heq]
      exact h
    · exact h
  exact eraseLoop_ops howMuch addr f op hops

/-- The program loop issues the halfwords it visits. -/
theorem programLoop_ops : ∀ (n i : Nat) (f : Flash), ∀ op ∈ (programLoop hw addr c n i f).1.ops,
    op ∈ f.ops ∨ ∃ k, i ≤ k ∧ k < i + n ∧ op = .program (addr + 2 * k)
  | 0, _, _, _, h => Or.inl h
  | n + 1, i, f, op, h => by
      have hhere : ∀ lo hi, op ∈ (programAt hw (addr + 2 * i) lo hi f).1.ops →
          op ∈ f.ops ∨ ∃ k, i ≤ k ∧ k < i + (n + 1) ∧ op = .program (addr + 2 * k) := by
        intro lo hi hop
        rcases List.mem_append.mp hop with hold | hnew
        · exact Or.inl hold
        · exact Or.inr ⟨i, le_rfl, by omega, List.mem_singleton.mp hnew⟩
      rw [programLoop] at h
      rcases hp : programAt hw (addr + 2 * i) (c.byteAt (2 * i)) (c.byteAt (2 * i + 1)) f with
        ⟨g, e | u⟩
      · rw [hp] at h
        exact hhere _ _ (by rw [hp]; exact h)
      · rw [hp] at h
        rcases programLoop_ops n (i + 1) g op h with hold | ⟨k, hk, hk', rfl⟩
        · exact hhere _ _ (by rw [hp]; exact hold)
        · exact Or.inr ⟨k, by omega, by omega, rfl⟩

/-- `write` programs an even address in front of the end of the data. -/
theorem write_ops {howMuch : Nat} {op : FlashOp} (hw32 : howMuch + 1 < 2 ^ 32)
    (h : op ∈ (write hw addr c howMuch f).1.ops) :
    op ∈ f.ops ∨ ∃ a, addr ≤ a ∧ a < addr + howMuch ∧ a % 2 = 0 ∧ op = .program a := by
  rw [write] at h
  split at h
  · exact Or.inl h
  · rename_i halign
    have hops : op ∈ (programLoop hw addr c (wrap32 (howMuch + 1) / 2) 0 f).1.ops := by
      split at h <;> rename_i heq <;> rw [heq] <;> exact h
    rcases programLoop_ops _ _ f op hops with hold | ⟨k, -, hk, rfl⟩
    · exact Or.inl hold
    · rw [wrap32_of_lt hw32] at hk
      exact Or.inr ⟨addr + 2 * k, by omega, by omega, by omega, rfl⟩

/-! ## The memory, on a controller that works -/

/-- The erase loop never meets a page that stays in use, and what it leaves
is the lazily erased memory. -/
theorem eraseLoop_mem (hl : hw.Lawful) {r : Bool} : ∀ (n pos : Nat) (f : Flash),
    eraseLoop hw n pos f = (f', .ok r) →
      r = true ∧ f'.mem = eraseDirty hw.page 0xFF f.mem pos n
  | 0, _, f, h => by
      cases h
      exact ⟨rfl, eraseDirty_zero.symm⟩
  | n + 1, pos, f, h => by
      rw [eraseLoop] at h
      split at h
      · rename_i hdirty
        have hmem : (erasePageAt hw pos f).1.mem = erasePage hw.page 0xFF f.mem pos := hl.erase f pos
        rcases hp : erasePageAt hw pos f with ⟨g, e | u⟩
        · rw [hp] at h
          cases h
        · rw [hp] at h hmem
          have hblank : g.mem pos = 0xFF := by rw [hmem]; exact if_pos rfl
          simp only [hblank, ne_eq, not_true_eq_false, if_false] at h
          obtain ⟨hr, hf'⟩ := eraseLoop_mem hl n (pos + 1) g h
          exact ⟨hr, by rw [hf', hmem, eraseDirty_succ_of_ne hdirty]⟩
      · rename_i hclean
        obtain ⟨hr, hf'⟩ := eraseLoop_mem hl n (pos + 1) f h
        exact ⟨hr, by rw [hf', eraseDirty_succ_of_eq (not_not.mp hclean)]⟩

theorem erase_mem (hl : hw.Lawful) {howMuch : Nat} {r : Bool} (hw32 : addr + howMuch < 2 ^ 32)
    (h : erase hw addr howMuch f = (f', .ok r)) :
    f'.mem = eraseDirty hw.page 0xFF f.mem addr howMuch := by
  have hn : wrap32 (addr + howMuch) - addr = howMuch := by rw [wrap32_of_lt hw32]; omega
  rw [erase, hn] at h
  rcases hloop : eraseLoop hw howMuch addr f with ⟨g, e | ok⟩
  · rw [hloop] at h
    cases h
  · rw [hloop] at h
    obtain ⟨rfl, hg⟩ := eraseLoop_mem hl howMuch addr f hloop
    cases h
    exact hg

/-- The program loop leaves all but the halfwords it visits alone. -/
theorem programLoop_mem (hl : hw.Lawful) {x : Nat} : ∀ (n i : Nat) (f : Flash) (r : Call Unit),
    programLoop hw addr c n i f = (f', r) → x < addr + 2 * i ∨ addr + 2 * (i + n) ≤ x →
      f'.mem x = f.mem x
  | 0, _, _, _, h, _ => by
      cases h
      rfl
  | n + 1, i, f, r, h, hx => by
      rw [programLoop] at h
      have hmem : ∀ lo hi, (programAt hw (addr + 2 * i) lo hi f).1.mem x = f.mem x :=
        fun lo hi => hl.program f _ lo hi x (by omega) (by omega)
      rcases hp : programAt hw (addr + 2 * i) (c.byteAt (2 * i)) (c.byteAt (2 * i + 1)) f with
        ⟨g, e | u⟩
      · rw [hp] at h
        cases h
        rw [← hmem (c.byteAt (2 * i)) (c.byteAt (2 * i + 1)), hp]
      · rw [hp] at h
        rw [programLoop_mem hl n (i + 1) g r h (by omega),
          ← hmem (c.byteAt (2 * i)) (c.byteAt (2 * i + 1)), hp]

/-- When `write` reports success, the data lies at `addr`, and nothing else
has changed but the byte behind data of odd length. -/
theorem write_mem (hl : hw.Lawful) {howMuch : Nat} (hw32 : howMuch + 1 < 2 ^ 32)
    (h : write hw addr c howMuch f = (f', .ok true)) :
    (∀ i < howMuch, f'.mem (addr + i) = c.byteAt i) ∧
      ∀ x, x < addr ∨ addr + 2 * ((howMuch + 1) / 2) ≤ x → f'.mem x = f.mem x := by
  rw [write] at h
  split at h
  · cases h
  rw [wrap32_of_lt hw32] at h
  rcases hloop : programLoop hw addr c ((howMuch + 1) / 2) 0 f with ⟨g, e | u⟩
  · rw [hloop] at h
    cases h
  · rw [hloop] at h
    simp only [Prod.mk.injEq, Except.ok.injEq] at h
    obtain ⟨rfl, hcmp⟩ := h
    rw [List.all_eq_true] at hcmp
    constructor
    · intro i hi
      have heq : c.byteAt i = g.mem (addr + i) := by simpa using hcmp i (by simpa using hi)
      exact heq.symm
    · intro x hx
      exact programLoop_mem hl _ 0 f _ hloop (by omega)

end FlashWriter

end UavcanAdapter
