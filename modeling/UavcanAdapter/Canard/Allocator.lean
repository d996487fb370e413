/-
# `Canard.Allocator` — the memory of the library

The pool is a row of blocks of 32 bytes, known by their numbers.  Those that
are free hang on a list; all others belong to a transmit queue item, to the
state of a transfer, or to the payload such a state has collected.  A block
keeps what its last owner left in it, which is an argument (`garbage`) of
whatever allocates one.

Who owns the other blocks is not the allocator's business; `Accounts` says
that a list of owned blocks and the free list make up the whole pool, each
block once, and that the statistics count the owned ones.
-/
import UavcanAdapter.Base.Call

namespace UavcanAdapter

open Base

/-- `CANARD_MEM_BLOCK_SIZE`. -/
def canardMemBlockSize : Nat := 32

/-- `CanardPoolAllocatorStatistics`. -/
structure CanardPoolAllocatorStatistics where
  capacityBlocks : Nat
  currentUsageBlocks : Nat
  peakUsageBlocks : Nat
deriving DecidableEq, Repr

/-- `CanardPoolAllocator`. -/
structure CanardPoolAllocator where
  freeList : List Nat
  statistics : CanardPoolAllocatorStatistics
deriving DecidableEq, Repr

/-- What every block holds, byte by byte, before it is written to. -/
abbrev Garbage := Nat → Nat → UInt8

namespace CanardPoolAllocator

/-- `initPoolAllocator`. -/
def initPoolAllocator (bufLen : Nat) : CanardPoolAllocator where
  freeList := List.range bufLen
  statistics := { capacityBlocks := bufLen, currentUsageBlocks := 0, peakUsageBlocks := 0 }

/-- `allocateBlock`.  The counters are as wide as the capacity. -/
def allocateBlock (a : CanardPoolAllocator) : Option (Nat × CanardPoolAllocator) :=
  match a.freeList with
  | [] => none
  | block :: rest =>
      let usage := (a.statistics.currentUsageBlocks + 1) % 2 ^ 16
      some (block,
        { freeList := rest
          statistics :=
            { a.statistics with
              currentUsageBlocks := usage
              peakUsageBlocks := if a.statistics.peakUsageBlocks < usage then usage
                else a.statistics.peakUsageBlocks } })

/-- `freeBlock`. -/
def freeBlock (a : CanardPoolAllocator) (p : Nat) : Call CanardPoolAllocator := do
  Call.assert (a.statistics.currentUsageBlocks > 0)
  return {
    freeList := p :: a.freeList
    statistics :=
      { a.statistics with currentUsageBlocks := a.statistics.currentUsageBlocks - 1 } }

/-- A list of blocks is freed from its front on. -/
def freeBlocks : CanardPoolAllocator → List Nat → Call CanardPoolAllocator
  | a, [] => .ok a
  | a, p :: ps => do
      let a ← a.freeBlock p
      freeBlocks a ps

/-- The blocks in `owned` are all that are not free. -/
structure Accounts (a : CanardPoolAllocator) (owned : List Nat) : Prop where
  perm : (a.freeList ++ owned).Perm (List.range a.statistics.capacityBlocks)
  capacity : a.statistics.capacityBlocks < 2 ^ 16
  usage : a.statistics.currentUsageBlocks = owned.length
  peak : owned.length ≤ a.statistics.peakUsageBlocks
  peak_le : a.statistics.peakUsageBlocks ≤ a.statistics.capacityBlocks

/-- From `a` to `a'` nothing but the blocks in `new` was allocated. -/
def Takes (a : CanardPoolAllocator) (new : List Nat) (a' : CanardPoolAllocator) : Prop :=
  ∀ owned, a.Accounts owned → a'.Accounts (new ++ owned)

section Accounting

variable {a a' a'' : CanardPoolAllocator} {owned ps qs : List Nat} {p : Nat}

theorem accounts_init {bufLen : Nat} (h : bufLen < 2 ^ 16) :
    (initPoolAllocator bufLen).Accounts [] where
  perm := by
    rw [List.append_nil]
    exact List.Perm.refl _
  capacity := h
  usage := rfl
  peak := Nat.le_refl 0
  peak_le := Nat.zero_le _

theorem Accounts.of_perm {owned' : List Nat} (h : a.Accounts owned) (hp : owned.Perm owned') :
    a.Accounts owned' where
  perm := (hp.symm.append_left a.freeList).trans h.perm
  capacity := h.capacity
  usage := h.usage.trans hp.length_eq
  peak := hp.length_eq ▸ h.peak
  peak_le := h.peak_le

theorem Accounts.length (h : a.Accounts owned) :
    a.freeList.length + owned.length = a.statistics.capacityBlocks := by
  have hlen := h.perm.length_eq
  rwa [List.length_append, List.length_range] at hlen

theorem allocateBlock_eq_none : a.allocateBlock = none ↔ a.freeList = [] := by
  rw [allocateBlock]
  split
  · rename_i hnil
    exact ⟨fun _ => hnil, fun _ => rfl⟩
  · rename_i hcons
    rw [hcons]
    exact ⟨nofun, nofun⟩

/-- An allocation takes the first free block. -/
theorem freeList_of_allocateBlock (h : a.allocateBlock = some (p, a')) :
    a.freeList = p :: a'.freeList ∧
      a'.statistics.capacityBlocks = a.statistics.capacityBlocks := by
  rw [allocateBlock] at h
  split at h
  · cases h
  · rename_i hcons
    cases h
    exact ⟨hcons, rfl⟩

theorem Accounts.allocate (h : a.Accounts owned) (ha : a.allocateBlock = some (p, a')) :
    a'.Accounts (p :: owned) := by
  have hlen := h.length
  have hcap := h.capacity
  have husage := h.usage
  have hpeak := h.peak
  have hpeak' := h.peak_le
  rw [allocateBlock] at ha
  split at ha
  · cases ha
  · rename_i rest hcons
    have hperm := h.perm
    rw [hcons] at hperm hlen
    rw [List.length_cons] at hlen
    cases ha
    have hmod : (a.statistics.currentUsageBlocks + 1) % 2 ^ 16 = owned.length + 1 := by omega
    refine ⟨List.perm_middle.trans hperm, hcap, hmod, ?_, ?_⟩
    · simp only [hmod, List.length_cons]
      split <;> omega
    · simp only [hmod]
      split <;> omega

theorem Takes.refl : a.Takes [] a := fun _ h => h

theorem Takes.trans (h : a.Takes ps a') (h' : a'.Takes qs a'') : a.Takes (ps ++ qs) a'' := by
  intro owned howned
  refine (h' _ (h owned howned)).of_perm ?_
  rw [← List.append_assoc]
  exact List.perm_append_comm.append_right owned

theorem Takes.allocate (h : a.allocateBlock = some (p, a')) : a.Takes [p] a' :=
  fun _ howned => howned.allocate h

theorem freeBlock_eq_ok : a.freeBlock p = .ok a' ↔
    0 < a.statistics.currentUsageBlocks ∧
      a' = { freeList := p :: a.freeList
             statistics := { a.statistics with
               currentUsageBlocks := a.statistics.currentUsageBlocks - 1 } } := by
  rw [freeBlock]
  by_cases h : a.statistics.currentUsageBlocks > 0
  · rw [Call.assert_of_true h]
    exact ⟨fun hok => ⟨h, (Call.pure_eq_ok.mp hok).symm⟩, fun hok => by rw [hok.2]; rfl⟩
  · rw [Call.assert_of_false h]
    exact ⟨nofun, fun hok => absurd hok.1 h⟩

/-- Giving an owned block back succeeds. -/
theorem Accounts.free (h : a.Accounts (p :: owned)) :
    ∃ a', a.freeBlock p = .ok a' ∧ a'.Accounts owned ∧ a'.freeList = p :: a.freeList := by
  have husage := h.usage
  have hpeak := h.peak
  rw [List.length_cons] at husage hpeak
  refine ⟨_, freeBlock_eq_ok.mpr ⟨by omega, rfl⟩, ⟨?_, h.capacity, ?_, ?_, h.peak_le⟩, rfl⟩
  · exact List.perm_middle.symm.trans h.perm
  · show a.statistics.currentUsageBlocks - 1 = owned.length
    omega
  · show owned.length ≤ a.statistics.peakUsageBlocks
    omega

theorem Accounts.frees (h : a.Accounts (ps ++ owned)) :
    ∃ a', a.freeBlocks ps = .ok a' ∧ a'.Accounts owned ∧
      a'.freeList = ps.reverse ++ a.freeList := by
  induction ps generalizing a with
  | nil => exact ⟨a, rfl, h, rfl⟩
  | cons p ps ih =>
      have hcons : a.Accounts (p :: (ps ++ owned)) := h
      obtain ⟨a₁, ha₁, hacc, hfree⟩ := hcons.free
      obtain ⟨a₂, ha₂, hacc', hfree'⟩ := ih hacc
      refine ⟨a₂, ?_, hacc', ?_⟩
      · rw [freeBlocks, ha₁, Call.ok_bind, ha₂]
      · rw [hfree', hfree, List.reverse_cons, List.append_assoc, List.singleton_append]

end Accounting

end CanardPoolAllocator

end UavcanAdapter
