/-
# `Interface.Scattered` — a structure scattered over registers

The storage of `AppSharedMarshaller` is a tuple of pointers.  A typed one is
accessed in the width of its type and stores as many bytes; a `void*` takes
all that is left of the structure.  `unwindReadWrite` walks over structure
and pointers at compile time; `none` is a `static_assert` that fails.

`Stored` says that a memory holds a structure pointer after pointer.  A
write brings it about and touches no pointer behind the last one it needs
(`unwind_write`), and wherever it holds a read returns the structure
(`unwind_read`).  The marshaller of `Interface.Marshaller` is the case of a
single `void*` to the start of the RAM.
-/
import UavcanAdapter.Base.Cells
import UavcanAdapter.Interface.Marshaller

namespace UavcanAdapter

open Base

/-- `enum class StorageUtilizationCheckMode`. -/
inductive StorageUtilizationCheckMode
  | requireFullStorageUtilization
  | allowUnderutilizedStorage
deriving DecidableEq, Repr

/-- A pointer to a part of the storage. -/
inductive StoragePointer
  /-- a `volatile T*`, with the size of `T` -/
  | register (addr width : Nat) (width_pos : 0 < width)
  /-- a `void*`, with the size of the block behind it -/
  | raw (addr size : Nat)
deriving DecidableEq

namespace StoragePointer

def addr : StoragePointer → Nat
  | register addr _ _ => addr
  | raw addr _ => addr

def size : StoragePointer → Nat
  | register _ width _ => width
  | raw _ size => size

/-- The pointer's storage contains cell `x`. -/
def Covers (p : StoragePointer) (x : Nat) : Prop := p.addr ≤ x ∧ x < p.addr + p.size

def Disjoint (p q : StoragePointer) : Prop := ∀ x, p.Covers x → ¬q.Covers x

theorem disjoint_of_le {p q : StoragePointer}
    (h : p.addr + p.size ≤ q.addr ∨ q.addr + q.size ≤ p.addr) : p.Disjoint q := by
  rintro x ⟨hlo, hhi⟩ ⟨hlo', hhi'⟩
  omega

/-- `Increment`: the number of bytes that `readOne` and `writeOne` move. -/
def increment (maxSize : Nat) : StoragePointer → Nat
  | register _ width _ => min width maxSize
  | raw _ _ => maxSize

/-- `readOne`: what it moves to the destination. -/
def readOne (maxSize : Nat) (mem : Nat → UInt8) : StoragePointer → List UInt8
  | register addr width _ => (load mem addr width).take (min width maxSize)
  | raw addr _ => load mem addr maxSize

/-- `writeOne`: a register is always written as a whole. -/
def writeOne (maxSize : Nat) (source : List UInt8) (mem : Nat → UInt8) :
    StoragePointer → Nat → UInt8
  | register addr width _ =>
      let n := min width maxSize
      store mem addr (source.take n ++ List.replicate (width - n) 0)
  | raw addr _ => store mem addr (source.take maxSize)

end StoragePointer

open StoragePointer (increment)

/-- `unwindReadWrite`, with `n` bytes of the structure left from `pos` on. -/
def unwindReadWrite (mode : StorageUtilizationCheckMode) (writeNotRead : Bool) :
    List StoragePointer → Nat → Nat → List UInt8 × (Nat → UInt8) →
      Option (List UInt8 × (Nat → UInt8))
  | ps, 0, _, s =>
      if mode = .requireFullStorageUtilization ∧ ps.length ≠ 0 then none else some s
  | [], _ + 1, _, _ => none
  | p :: ps, n + 1, pos, (wrapper, mem) =>
      unwindReadWrite mode writeNotRead ps (n + 1 - p.increment (n + 1))
        (pos + p.increment (n + 1))
        (if writeNotRead then (wrapper, p.writeOne (n + 1) (wrapper.drop pos) mem)
        else (patch wrapper pos (p.readOne (n + 1) mem), mem))

/-- The pointers that are used for `n` bytes. -/
def usedPointers : List StoragePointer → Nat → List StoragePointer
  | _, 0 => []
  | [], _ + 1 => []
  | p :: ps, n + 1 => p :: usedPointers ps (n + 1 - p.increment (n + 1))

def totalSize (ps : List StoragePointer) : Nat := (ps.map StoragePointer.size).sum

/-- Nothing comes behind a `void*`. -/
def RawLast : List StoragePointer → Prop
  | [] => True
  | .register _ _ _ :: ps => RawLast ps
  | .raw _ _ :: ps => ps = []

/-- The storage of a marshaller. -/
structure ScatteredStorage where
  pointers : List StoragePointer
  disjoint : pointers.Pairwise StoragePointer.Disjoint
  raw_last : RawLast pointers

/-- The storage of the pointer holds the beginning of `bs`; what a register
has beyond `bs` is zero. -/
def StoragePointer.Holds (mem : Nat → UInt8) (bs : List UInt8) : StoragePointer → Prop
  | .register addr width _ =>
      load mem addr width = bs.take width ++ List.replicate (width - bs.length) 0
  | .raw addr _ => load mem addr bs.length = bs

/-- The storage holds the bytes, pointer after pointer. -/
def Stored (mem : Nat → UInt8) : List StoragePointer → List UInt8 → Prop
  | [], bs => bs = []
  | p :: ps, bs => bs = [] ∨ (p.Holds mem bs ∧ Stored mem ps (bs.drop (p.increment bs.length)))

/-! ## The pointers that are used -/

section Used

variable {p : StoragePointer} {ps qs : List StoragePointer} {n : Nat}

theorem increment_le (p : StoragePointer) (n : Nat) : p.increment n ≤ n := by
  cases p with
  | register addr width hpos => exact Nat.min_le_right width n
  | raw addr size => exact le_rfl

/-- A pointer takes all that is left, or as much as it has. -/
theorem increment_cases (p : StoragePointer) (n : Nat) :
    p.increment n = n ∨ p.increment n = p.size := by
  cases p with
  | register addr width hpos => exact (min_choice width n).symm
  | raw addr size => exact Or.inl rfl

theorem totalSize_cons : totalSize (p :: ps) = p.size + totalSize ps := rfl

/-- What is left for the other pointers. -/
theorem sub_increment_le (hn : n ≤ totalSize (p :: ps)) : n - p.increment n ≤ totalSize ps := by
  rw [totalSize_cons] at hn
  have hinc := increment_cases p n
  omega

/-- A pointer takes no more than it has. -/
theorem increment_le_size (hraw : RawLast (p :: ps)) (hn : n ≤ totalSize (p :: ps)) :
    p.increment n ≤ p.size := by
  cases p with
  | register addr width hpos => exact Nat.min_le_left width n
  | raw addr size =>
      have hnil : ps = [] := hraw
      rw [hnil] at hn
      exact hn

theorem RawLast.tail (h : RawLast (p :: ps)) : RawLast ps := by
  cases p with
  | register addr width hpos => exact h
  | raw addr size =>
      have hnil : ps = [] := h
      rw [hnil]
      trivial

theorem usedPointers_initial : ∀ (ps : List StoragePointer) (n : Nat), usedPointers ps n <+: ps
  | _, 0 => by
      rw [usedPointers]
      exact List.nil_prefix
  | [], _ + 1 => List.nil_prefix
  | p :: ps, n + 1 => by
      rw [usedPointers, List.cons_prefix_cons]
      exact ⟨rfl, usedPointers_initial ps _⟩

/-- The pointers used are enough. -/
theorem le_totalSize_usedPointers : ∀ (ps : List StoragePointer) (n : Nat), RawLast ps →
    n ≤ totalSize ps → n ≤ totalSize (usedPointers ps n)
  | _, 0, _, _ => Nat.zero_le _
  | [], _ + 1, _, hn => hn
  | p :: ps, n + 1, hraw, hn => by
      have hrest := le_totalSize_usedPointers ps _ hraw.tail (sub_increment_le hn)
      have hinc := increment_le_size hraw hn
      rw [usedPointers, totalSize_cons]
      omega

/-- Fewer of them are not. -/
theorem totalSize_lt_of_prefix : ∀ (ps qs : List StoragePointer) (n : Nat),
    qs <+: usedPointers ps n → qs ≠ usedPointers ps n → totalSize qs < n
  | _, _, 0, hpre, hne => by
      rw [usedPointers] at hpre hne
      exact absurd (List.prefix_nil.mp hpre) hne
  | [], _, _ + 1, hpre, hne => absurd (List.prefix_nil.mp hpre) hne
  | p :: ps, [], n + 1, _, _ => Nat.succ_pos n
  | p :: ps, q :: qs, n + 1, hpre, hne => by
      rw [usedPointers, List.cons_prefix_cons] at hpre
      obtain ⟨rfl, hpre⟩ := hpre
      have hne' : qs ≠ usedPointers ps (n + 1 - q.increment (n + 1)) := by
        rintro rfl
        exact hne rfl
      have hrest := totalSize_lt_of_prefix ps qs _ hpre hne'
      have hinc := increment_cases q (n + 1)
      rw [totalSize_cons]
      omega

end Used

/-! ## Writing -/

section Unwind

variable {p : StoragePointer} {ps : List StoragePointer} {n : Nat} {mem mem' : Nat → UInt8}
  {wrapper bs : List UInt8}

/-- `writeOne` leaves what the pointer should hold. -/
theorem holds_writeOne : p.Holds (p.writeOne bs.length bs mem) bs := by
  cases p with
  | register addr width hpos =>
      have hmin : bs.take (min width bs.length) = bs.take width := by
        rw [← List.take_take, List.take_length]
      have hwidth : (bs.take (min width bs.length) ++
          List.replicate (width - min width bs.length) (0 : UInt8)).length = width := by
        simp
      have hzeros : width - min width bs.length = width - bs.length := by omega
      rw [StoragePointer.Holds, StoragePointer.writeOne, load_store hwidth.ge,
        List.take_of_length_le hwidth.le, hmin, hzeros]
  | raw addr size =>
      rw [StoragePointer.Holds, StoragePointer.writeOne, List.take_length, load_store le_rfl,
        List.take_length]

/-- `writeOne` stays inside the pointer's storage. -/
theorem writeOne_of_not_covers {x : Nat} (hraw : RawLast (p :: ps)) (hn : n ≤ totalSize (p :: ps))
    (hx : ¬p.Covers x) : p.writeOne n bs mem x = mem x := by
  have hstore : ∀ l : List UInt8, l.length ≤ p.size → store mem p.addr l x = mem x := by
    intro l hl
    rcases Nat.lt_or_ge x p.addr with hlt | hge
    · exact store_of_lt hlt
    · have hend : p.addr + p.size ≤ x := by
        by_contra hcon
        exact hx ⟨hge, by omega⟩
      exact store_of_ge (by omega)
  cases p with
  | register addr width hpos =>
      apply hstore
      simp only [List.length_append, List.length_take, List.length_replicate, StoragePointer.size]
      omega
  | raw addr size =>
      apply hstore
      have hle : n ≤ size := increment_le_size hraw hn
      simp only [List.length_take, StoragePointer.size]
      omega

/-- What a pointer holds is a matter of its own storage. -/
theorem holds_congr (hraw : RawLast (p :: ps)) (hn : bs.length ≤ totalSize (p :: ps))
    (hmem : ∀ x, p.Covers x → mem' x = mem x) (h : p.Holds mem bs) : p.Holds mem' bs := by
  cases p with
  | register addr width hpos =>
      have hload : load mem' addr width = load mem addr width :=
        load_congr fun x hlo hhi => hmem x ⟨hlo, hhi⟩
      rw [StoragePointer.Holds, hload]
      exact h
  | raw addr size =>
      have hle : bs.length ≤ size := increment_le_size hraw hn
      have hload : load mem' addr bs.length = load mem addr bs.length :=
        load_congr fun x hlo hhi => hmem x ⟨hlo, hhi.trans_le (Nat.add_le_add_left hle addr)⟩
      rw [StoragePointer.Holds, hload]
      exact h

theorem stored_nil : ∀ ps : List StoragePointer, Stored mem ps []
  | [] => rfl
  | _ :: _ => Or.inl rfl

/-- The pointers that are used hold all of it. -/
theorem stored_usedPointers : ∀ (ps : List StoragePointer) (bs : List UInt8),
    Stored mem ps bs → Stored mem (usedPointers ps bs.length) bs
  | _, [], _ => stored_nil _
  | [], _ :: _, h => nomatch h
  | p :: ps, b :: bs, h => by
      obtain ⟨hp, hstored⟩ := h.resolve_left (List.cons_ne_nil b bs)
      have hrest := stored_usedPointers ps _ hstored
      rw [List.length_drop] at hrest
      exact Or.inr ⟨hp, hrest⟩

/-- Where the storage is large enough, a write goes through, leaves the
structure there and touches nothing but the pointers it uses. -/
theorem unwind_write : ∀ (ps : List StoragePointer) (n pos : Nat) (mem : Nat → UInt8),
    ps.Pairwise StoragePointer.Disjoint → RawLast ps → n ≤ totalSize ps →
      pos + n = wrapper.length →
      ∃ mem', unwindReadWrite .allowUnderutilizedStorage true ps n pos (wrapper, mem) =
          some (wrapper, mem') ∧
        Stored mem' ps (wrapper.drop pos) ∧
        ∀ x, (∀ p ∈ usedPointers ps n, ¬p.Covers x) → mem' x = mem x
  | ps, 0, pos, mem, _, _, _, hlen => by
      have hdrop : wrapper.drop pos = [] := List.drop_eq_nil_of_le (by omega)
      refine ⟨mem, ?_, ?_, fun _ _ => rfl⟩
      · rw [unwindReadWrite, if_neg (by simp)]
      · rw [hdrop]
        exact stored_nil ps
  | [], n + 1, _, _, _, _, hn, _ => absurd hn (Nat.not_succ_le_zero n)
  | p :: ps, n + 1, pos, mem, hd, hraw, hn, hlen => by
      obtain ⟨hp, hd⟩ := List.pairwise_cons.mp hd
      have hinc := increment_le p (n + 1)
      obtain ⟨mem', hrun, hstored, hframe⟩ := unwind_write ps (n + 1 - p.increment (n + 1))
        (pos + p.increment (n + 1)) (p.writeOne (n + 1) (wrapper.drop pos) mem) hd hraw.tail
        (sub_increment_le hn) (by omega)
      have hleft : (wrapper.drop pos).length = n + 1 := by
        rw [List.length_drop]
        omega
      refine ⟨mem', ?_, Or.inr ⟨?_, ?_⟩, ?_⟩
      · rw [unwindReadWrite]
        exact hrun
      · have hwritten : p.Holds (p.writeOne (n + 1) (wrapper.drop pos) mem) (wrapper.drop pos) := by
          rw [← hleft]
          exact holds_writeOne
        -- the pointers behind do not reach back
        refine holds_congr hraw (by omega) (fun x hx => hframe x fun q hq => ?_) hwritten
        exact hp q ((usedPointers_initial ps _).subset hq) x hx
      · rw [hleft, List.drop_drop]
        exact hstored
      · intro x hx
        rw [usedPointers, List.forall_mem_cons] at hx
        rw [hframe x hx.2]
        exact writeOne_of_not_covers hraw hn hx.1

/-! ## Reading -/

/-- `readOne` moves what is left of the structure, as far as the pointer
goes. -/
theorem readOne_of_holds (h : p.Holds mem bs) :
    p.readOne bs.length mem = bs.take (p.increment bs.length) := by
  cases p with
  | register addr width hpos =>
      have hload : load mem addr width = bs.take width ++ List.replicate (width - bs.length) 0 := h
      rw [StoragePointer.readOne, hload, StoragePointer.increment,
        List.take_append_of_le_length (by simp), List.take_take]
      congr 1
      omega
  | raw addr size =>
      have hload : load mem addr bs.length = bs := h
      rw [StoragePointer.readOne, hload, StoragePointer.increment, List.take_length]

/-- A read of a storage that holds a structure returns it. -/
theorem unwind_read : ∀ (ps : List StoragePointer) (bs buffer : List UInt8) (pos : Nat),
    Stored mem ps bs → pos + bs.length ≤ buffer.length →
      unwindReadWrite .allowUnderutilizedStorage false ps bs.length pos (buffer, mem) =
        some (patch buffer pos bs, mem)
  | ps, [], buffer, pos, _, _ => by
      rw [List.length_nil, unwindReadWrite, if_neg (by simp), patch]
      simp
  | [], _ :: _, _, _, h, _ => nomatch h
  | p :: ps, b :: bs, buffer, pos, h, hlen => by
      obtain ⟨hp, hstored⟩ := h.resolve_left (List.cons_ne_nil b bs)
      have hinc := increment_le p (b :: bs).length
      have hread := readOne_of_holds hp
      have htake : ((b :: bs).take (p.increment (b :: bs).length)).length =
          p.increment (b :: bs).length := List.length_take_of_le hinc
      have hbuf : (patch buffer pos ((b :: bs).take (p.increment (b :: bs).length))).length =
          buffer.length := length_patch (by omega)
      have hrest := unwind_read ps ((b :: bs).drop (p.increment (b :: bs).length))
        (patch buffer pos ((b :: bs).take (p.increment (b :: bs).length)))
        (pos + p.increment (b :: bs).length) hstored (by rw [hbuf, List.length_drop]; omega)
      have hpatch := patch_append (q := (b :: bs).drop (p.increment (b :: bs).length))
        (p := (b :: bs).take (p.increment (b :: bs).length)) (show pos ≤ buffer.length by omega)
      rw [htake, List.take_append_drop] at hpatch
      rw [hpatch, List.length_drop, ← hread] at hrest
      exact hrest

/-- The check of the storage utilization fails where a pointer is unused. -/
theorem unwind_requireFull (writeNotRead : Bool) :
    ∀ (ps : List StoragePointer) (n pos : Nat) (s : List UInt8 × (Nat → UInt8)),
      unwindReadWrite .requireFullStorageUtilization writeNotRead ps n pos s =
        if usedPointers ps n = ps then
          unwindReadWrite .allowUnderutilizedStorage writeNotRead ps n pos s
        else none
  | [], 0, _, _ => rfl
  | _ :: _, 0, _, _ => rfl
  | [], _ + 1, _, _ => rfl
  | p :: ps, n + 1, pos, (wrapper, mem) => by
      rw [unwindReadWrite, unwind_requireFull writeNotRead ps, usedPointers, unwindReadWrite]
      simp only [List.cons.injEq, true_and]

end Unwind

/-- On every storage that is large enough a write goes through, uses the
pointers in their order and as few as will do, leaves zeros behind the
structure in the last register, and touches nothing else; and a read behind
it returns the structure. -/
theorem scattered_round_trip (st : ScatteredStorage) (w buffer : List UInt8) (mem : Nat → UInt8)
    (hsize : w.length ≤ totalSize st.pointers) (hbuf : buffer.length = w.length) :
    ∃ (mem' : Nat → UInt8) (used unused : List StoragePointer),
      unwindReadWrite .allowUnderutilizedStorage true st.pointers w.length 0 (w, mem) =
        some (w, mem') ∧
      unwindReadWrite .allowUnderutilizedStorage false st.pointers w.length 0 (buffer, mem') =
        some (w, mem') ∧
      st.pointers = used ++ unused ∧ w.length ≤ totalSize used ∧
      (∀ qs, qs <+: used → qs ≠ used → totalSize qs < w.length) ∧
      Stored mem' used w ∧
      (∀ x, (∀ p ∈ used, ¬p.Covers x) → mem' x = mem x) ∧
      (∀ p ∈ unused, ∀ x, p.Covers x → mem' x = mem x) ∧
      ∀ (writeNotRead : Bool) (s : List UInt8 × (Nat → UInt8)),
        unwindReadWrite .requireFullStorageUtilization writeNotRead st.pointers w.length 0 s =
          if unused = [] then
            unwindReadWrite .allowUnderutilizedStorage writeNotRead st.pointers w.length 0 s
          else none := by
  obtain ⟨mem', hwrite, hstored, hframe⟩ :=
    unwind_write st.pointers w.length 0 mem st.disjoint st.raw_last hsize (Nat.zero_add _)
  obtain ⟨unused, hsplit⟩ := usedPointers_initial st.pointers w.length
  have hread := unwind_read st.pointers w buffer 0 hstored (by omega)
  rw [patch_all hbuf.symm] at hread
  have hdisjoint := st.disjoint
  rw [← hsplit, List.pairwise_append] at hdisjoint
  refine ⟨mem', usedPointers st.pointers w.length, unused, hwrite, hread, hsplit.symm,
    le_totalSize_usedPointers _ _ st.raw_last hsize, fun qs => totalSize_lt_of_prefix _ qs _,
    stored_usedPointers _ _ hstored, hframe, ?_, ?_⟩
  · intro p hp x hx
    exact hframe x fun q hq hqx => hdisjoint.2.2 q hq p hp x hqx hx
  · intro writeNotRead s
    have hiff : usedPointers st.pointers w.length = st.pointers ↔ unused = [] := by
      nth_rewrite 2 [← hsplit]
      rw [List.self_eq_append_right]
    rw [unwind_requireFull]
    simp only [hiff]

/-- Registers of three widths and a block, for five bytes: the register of
four bytes is filled up with zeros, and the block is left alone. -/
theorem scattered_round_trip_mixed :
    let st : ScatteredStorage :=
      { pointers := [.register 100 2 (by decide), .register 200 1 (by decide),
          .register 104 4 (by decide), .raw 300 16]
        disjoint := List.Pairwise.imp StoragePointer.disjoint_of_le (by decide)
        raw_last := rfl }
    ∃ mem' : Nat → UInt8,
      unwindReadWrite .allowUnderutilizedStorage true st.pointers 5 0
        ([1, 2, 3, 4, 5], fun _ => 0xFF) = some ([1, 2, 3, 4, 5], mem') ∧
      unwindReadWrite .allowUnderutilizedStorage false st.pointers 5 0
        ([0, 0, 0, 0, 0], mem') = some ([1, 2, 3, 4, 5], mem') := by
  intro st
  obtain ⟨mem', _, _, hwrite, hread, -⟩ := scattered_round_trip st [1, 2, 3, 4, 5] [0, 0, 0, 0, 0]
    (fun _ => 0xFF) (by decide) rfl
  exact ⟨mem', hwrite, hread⟩

/-! ## The marshaller -/

namespace AppSharedMarshaller

variable {C : Type} (pod : Pod C) (mode : StorageUtilizationCheckMode) (st : ScatteredStorage)

/-- `write`, to a scattered storage. -/
def writeScattered (c : C) (mem : Nat → UInt8) : Option (Nat → UInt8) :=
  (unwindReadWrite mode true st.pointers (pod.size + crcSize) 0 (wrapper pod c, mem)).map Prod.snd

/-- `erase`, of a scattered storage. -/
def eraseScattered (mem : Nat → UInt8) : Option (Nat → UInt8) :=
  (unwindReadWrite mode true st.pointers (pod.size + crcSize) 0
    (List.replicate (pod.size + crcSize) 0, mem)).map Prod.snd

/-- `read`, from a scattered storage. -/
def readScattered (autoErase : AutoErase) (mem : Nat → UInt8) :
    Option ((C × Bool) × (Nat → UInt8)) := do
  let (w, mem) ← unwindReadWrite mode false st.pointers (pod.size + crcSize) 0
    (List.replicate (pod.size + crcSize) 0, mem)
  let valid := isCRCValid pod w
  let mem ← if valid ∧ autoErase = .eraseAfterRead then eraseScattered pod mode st mem else some mem
  return ((pod.ofBytes (w.take pod.size), valid), mem)

variable {pod st}

/-- What is written to a scattered storage is read back as valid. -/
theorem readScattered_writeScattered {c : C} {mem : Nat → UInt8}
    (hsize : pod.size + crcSize ≤ totalSize st.pointers) :
    ∃ mem', writeScattered pod .allowUnderutilizedStorage st c mem = some mem' ∧
      readScattered pod .allowUnderutilizedStorage st .doNotErase mem' = some ((c, true), mem') := by
  have hlen := length_wrapper pod c
  obtain ⟨mem', _, _, hwrite, hread, -⟩ := scattered_round_trip st (wrapper pod c)
    (List.replicate (pod.size + crcSize) 0) mem (by omega) (by rw [List.length_replicate, hlen])
  rw [hlen] at hwrite hread
  refine ⟨mem', by rw [writeScattered, hwrite]; rfl, ?_⟩
  simp [readScattered, hread, isCRCValid_wrapper, take_wrapper, pod.ofBytes_toBytes]

/-! ## A single block -/

/-- `SRAM_BASE`. -/
def sramBase : Nat := 0x20000000

/-- The start of the RAM, as `makeAppSharedMarshaller` is given it. -/
def sramStorage : ScatteredStorage where
  pointers := [.raw sramBase 256]
  disjoint := List.pairwise_singleton _ _
  raw_last := rfl

/-- The RAM as a memory. -/
def sramCells (m : Sram) : Nat → UInt8 := store (fun _ => 0) sramBase m.bytes

theorem unwind_write_sram {m : Sram} {w : List UInt8} (h : w.length ≤ 256) :
    unwindReadWrite .allowUnderutilizedStorage true sramStorage.pointers w.length 0
      (w, sramCells m) = some (w, sramCells (m.store w h)) := by
  have hbytes : (m.store w h).bytes = w ++ m.bytes.drop w.length := by
    change patch m.bytes 0 w = _
    rw [patch, List.take_zero, List.nil_append, Nat.zero_add]
  have hcells : store (sramCells m) sramBase w = sramCells (m.store w h) := by
    rw [sramCells, store_store (by rw [m.length_eq]; exact h), sramCells, hbytes]
  cases w with
  | nil =>
      rw [store_nil] at hcells
      rw [hcells]
      rfl
  | cons b bs =>
      rw [← hcells]
      simp [unwindReadWrite, sramStorage, StoragePointer.increment, StoragePointer.writeOne]

theorem unwind_read_sram {m : Sram} {buffer : List UInt8} (h : buffer.length ≤ 256) :
    unwindReadWrite .allowUnderutilizedStorage false sramStorage.pointers buffer.length 0
      (buffer, sramCells m) = some (m.load buffer.length, sramCells m) := by
  have hlen : (m.load buffer.length).length = buffer.length := by
    rw [Sram.load, List.length_take_of_le (by rw [m.length_eq]; exact h)]
  have hload : load (sramCells m) sramBase (m.load buffer.length).length = m.load buffer.length := by
    rw [hlen]
    exact load_store (by rw [m.length_eq]; exact h)
  have hstored : Stored (sramCells m) sramStorage.pointers (m.load buffer.length) :=
    Or.inr ⟨hload, List.drop_length⟩
  have hread := unwind_read _ _ buffer 0 hstored (by omega)
  rw [patch_all hlen, hlen] at hread
  exact hread

/-- At the start of the RAM the marshaller is the one of a single block. -/
theorem writeScattered_sram {c : C} {m : Sram} :
    writeScattered pod .allowUnderutilizedStorage sramStorage c (sramCells m) =
      some (sramCells (write pod c m)) := by
  rw [writeScattered, ← length_wrapper pod c, unwind_write_sram (wrapper_le pod c)]
  rfl

theorem eraseScattered_sram {m : Sram} :
    eraseScattered pod .allowUnderutilizedStorage sramStorage (sramCells m) =
      some (sramCells (erase pod m)) := by
  have hrun := unwind_write_sram (m := m) (zeros_le pod)
  rw [List.length_replicate] at hrun
  rw [eraseScattered, hrun]
  rfl

theorem readScattered_sram {autoErase : AutoErase} {m : Sram} :
    readScattered pod .allowUnderutilizedStorage sramStorage autoErase (sramCells m) =
      some ((read pod autoErase m).1, sramCells (read pod autoErase m).2) := by
  have hrun := unwind_read_sram (m := m) (zeros_le pod)
  rw [List.length_replicate] at hrun
  rw [readScattered, hrun, Option.bind_eq_bind, Option.bind_some]
  simp only [eraseScattered_sram, read]
  split <;> rfl

end AppSharedMarshaller

end UavcanAdapter
