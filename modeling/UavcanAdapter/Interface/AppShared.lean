/-
# `Interface.AppShared` — what bootloader and application tell each other

`struct AppShared`, declared with the same members in the same order in
`bootloader_app_interface.hpp` and in `bootloader_interface.hpp`, and the
functions by which the two programs write, read and erase it.

Nothing but the CRC says whether the structure is there.  That the erased
one is never taken for a valid one (`crc64_zeros`) makes the shared memory a
mailbox for every history of accesses from either side (`exchange`).
-/
import UavcanAdapter.Interface.Marshaller

namespace UavcanAdapter

open Base

namespace BootloaderAppInterface

/-- `AppShared::UAVCANFileNameMaxLength`. -/
def uavcanFileNameMaxLength : Nat := 201

/-- `struct AppShared`. -/
structure AppShared where
  reservedA : UInt32 := 0
  reservedB : UInt32 := 0
  canBusSpeed : UInt32 := 0
  uavcanNodeId : UInt8 := 0
  uavcanFwServerNodeId : UInt8 := 0
  uavcanFileName : Vector UInt8 201 := Vector.replicate 201 0
  stayInBootloader : Bool := false
deriving DecidableEq

namespace AppShared

/-- The structure in memory.  Its members leave no gaps. -/
def toBytes (s : AppShared) : List UInt8 :=
  leBytes 4 s.reservedA.toNat ++ leBytes 4 s.reservedB.toNat ++ leBytes 4 s.canBusSpeed.toNat ++
    [s.uavcanNodeId] ++ [s.uavcanFwServerNodeId] ++ s.uavcanFileName.toList ++
    [s.stayInBootloader.toUInt8]

/-- The structure that lies in memory. -/
def ofBytes (bs : List UInt8) : AppShared where
  reservedA := UInt32.ofNat (leNat (slice bs 0 4))
  reservedB := UInt32.ofNat (leNat (slice bs 4 4))
  canBusSpeed := UInt32.ofNat (leNat (slice bs 8 4))
  uavcanNodeId := bs.getD 12 0
  uavcanFwServerNodeId := bs.getD 13 0
  uavcanFileName := Vector.ofFn fun i => bs.getD (14 + i) 0
  stayInBootloader := bs.getD 215 0 != 0

theorem length_toBytes (s : AppShared) : s.toBytes.length = 216 := by
  simp [toBytes]

/-- A 32-bit member is read back. -/
theorem word_eq (v : UInt32) : UInt32.ofNat (leNat (leBytes 4 v.toNat)) = v := by
  rw [leNat_leBytes_of_lt (UInt32.toNat_lt v), UInt32.ofNat_toNat]

theorem ofBytes_toBytes (s : AppShared) : ofBytes s.toBytes = s := by
  have hname : ∀ i : Fin 201, s.toBytes.getD (14 + i) 0 = s.uavcanFileName[i] := by
    intro i
    have hi := i.isLt
    simp [toBytes, leBytes, List.getD_eq_getElem?_getD, Nat.add_comm 14, List.getElem?_append_left]
  have hstay : s.toBytes.getD 215 0 = s.stayInBootloader.toUInt8 := by
    simp [toBytes, leBytes, List.getD_eq_getElem?_getD]
  have hbool : ∀ b : Bool, (b.toUInt8 != 0) = b := by decide
  cases s with
  | mk a b speed id server name stay =>
      simp only [ofBytes, mk.injEq]
      refine ⟨?_, ?_, ?_, ?_, ?_, ?_, ?_⟩
      · exact word_eq a
      · exact word_eq b
      · exact word_eq speed
      · rfl
      · rfl
      · apply Vector.ext
        intro i hi
        rw [Vector.getElem_ofFn]
        exact hname ⟨i, hi⟩
      · rw [hstay]
        exact hbool stay

/-- The structure as the marshaller sees it. -/
def pod : Pod AppShared where
  size := 216
  toBytes := toBytes
  ofBytes := ofBytes
  length_toBytes := length_toBytes
  ofBytes_toBytes := ofBytes_toBytes
  size_le := by decide

end AppShared

/-- `readAndErase`. -/
def readAndErase (m : Sram) : (AppShared × Bool) × Sram :=
  AppSharedMarshaller.read AppShared.pod .eraseAfterRead m

/-- `write`. -/
def write (apsh : AppShared) (m : Sram) : Sram := AppSharedMarshaller.write AppShared.pod apsh m

end BootloaderAppInterface

namespace BootloaderInterface

open BootloaderAppInterface (AppShared)

/-- `readAndInvalidateSharedStruct`. -/
def readAndInvalidateSharedStruct (m : Sram) : (AppShared × Bool) × Sram :=
  AppSharedMarshaller.read AppShared.pod .eraseAfterRead m

/-- `writeSharedStruct`. -/
def writeSharedStruct (shared : AppShared) (m : Sram) : Sram :=
  AppSharedMarshaller.write AppShared.pod shared m

end BootloaderInterface

/-! ## Accesses from both sides -/

namespace AppExchange

open BootloaderAppInterface (AppShared)

inductive Side
  | application
  | bootloader
deriving DecidableEq, Repr

inductive Op
  | write (v : AppShared)
  /-- the marshaller's `read` without erasure -/
  | read
  | readAndErase
  /-- the marshaller's `erase` -/
  | erase
deriving DecidableEq

/-- One operation: what it returns, and the memory behind it. -/
def perform (side : Side) (op : Op) (m : Sram) : Option (AppShared × Bool) × Sram :=
  match op with
  | .write v =>
      match side with
      | .application => (none, BootloaderInterface.writeSharedStruct v m)
      | .bootloader => (none, BootloaderAppInterface.write v m)
  | .read =>
      let (r, m) := AppSharedMarshaller.read AppShared.pod .doNotErase m
      (some r, m)
  | .readAndErase =>
      let (r, m) := match side with
        | .application => BootloaderInterface.readAndInvalidateSharedStruct m
        | .bootloader => BootloaderAppInterface.readAndErase m
      (some r, m)
  | .erase => (none, AppSharedMarshaller.erase AppShared.pod m)

/-- An operation of one side, with what it returned. -/
structure Event where
  side : Side
  op : Op
  returned : Option (AppShared × Bool)
deriving DecidableEq

namespace Event

/-- The operation reported a valid structure. -/
def valid (e : Event) : Bool :=
  match e.returned with
  | some r => r.2
  | none => false

/-- The event ends the life of the structure written last: it is an erase,
a valid read that erases, or the next write. -/
def ends (e : Event) : Bool :=
  match e.op with
  | .write _ | .erase => true
  | .readAndErase => e.valid
  | .read => false

end Event

/-- `v` was written, and nothing behind it ended its life. -/
def LastWritten (history : List Event) (v : AppShared) : Prop :=
  ∃ pre e post, history = pre ++ e :: post ∧ e.op = .write v ∧ ∀ d ∈ post, d.ends = false

/-- The memory under the operations of both sides. -/
def machine (m₀ : Sram) : Machine Sram Event where
  init m := m = m₀
  step m e m' := perform e.side e.op m = (e.returned, m')

/-- What an event does to the mailbox. -/
def Event.access (e : Event) : Access AppShared :=
  match e.op with
  | .write v => .put v
  | .erase => .drop
  | .readAndErase => if e.valid then .drop else .look
  | .read => .look

theorem access_eq_look_iff {e : Event} : e.access = .look ↔ e.ends = false := by
  cases e with
  | mk side op returned =>
      cases op with
      | write v | read | erase => simp [Event.access, Event.ends]
      | readAndErase => by_cases h : Event.valid ⟨side, .readAndErase, returned⟩ <;>
          simp [Event.access, Event.ends, h]

theorem access_eq_put_iff {e : Event} {v : AppShared} : e.access = .put v ↔ e.op = .write v := by
  cases e with
  | mk side op returned =>
      cases op with
      | write v | read | erase => simp [Event.access]
      | readAndErase => by_cases h : Event.valid ⟨side, .readAndErase, returned⟩ <;>
          simp [Event.access, h]

/-- The history says what is in the mailbox. -/
theorem content_eq_some_iff {history : List Event} {v : AppShared} :
    Access.content (history.map Event.access) = some v ↔ LastWritten history v := by
  rw [Access.content_eq_some_iff]
  constructor
  · rintro ⟨pre, post, heq, hpost⟩
    obtain ⟨pre', rest, rfl, rfl, hrest⟩ := List.map_eq_append_iff.mp heq
    obtain ⟨e, post', rfl, he, rfl⟩ := List.map_eq_cons_iff.mp hrest
    refine ⟨pre', e, post', rfl, access_eq_put_iff.mp he, fun d hd => ?_⟩
    exact access_eq_look_iff.mp (hpost _ (List.mem_map_of_mem hd))
  · rintro ⟨pre, e, post, rfl, he, hpost⟩
    refine ⟨pre.map Event.access, post.map Event.access, ?_, fun a ha => ?_⟩
    · rw [List.map_append, List.map_cons, access_eq_put_iff.mpr he]
    · obtain ⟨d, hd, rfl⟩ := List.mem_map.mp ha
      exact access_eq_look_iff.mpr (hpost d hd)

/-- The CRC of the erased structure is not zero: the register after each
quarter of the zeros. -/
theorem crc64_zeros : crc64 (List.replicate AppShared.pod.size 0) ≠ 0 := by
  have hsplit : List.replicate AppShared.pod.size (0 : UInt8) = List.replicate 54 0 ++
      List.replicate 54 0 ++ List.replicate 54 0 ++ List.replicate 54 0 := by
    simp only [List.replicate_append_replicate]
    rfl
  have h1 : CRC64WE.add {} (List.replicate 54 0) = ⟨14296563543910187176⟩ := by decide +kernel
  have h2 : CRC64WE.add ⟨14296563543910187176⟩ (List.replicate 54 0) = ⟨3786133669476622219⟩ := by
    decide +kernel
  have h3 : CRC64WE.add ⟨3786133669476622219⟩ (List.replicate 54 0) = ⟨11539781415188736471⟩ := by
    decide +kernel
  have h4 : CRC64WE.add ⟨11539781415188736471⟩ (List.replicate 54 0) = ⟨6322754466289002392⟩ := by
    decide +kernel
  rw [crc64, hsplit, CRC64WE.add_append, CRC64WE.add_append, CRC64WE.add_append, h1, h2, h3, h4]
  decide

open AppSharedMarshaller (Holds read_of_holds_some read_of_holds_none holds_write holds_erase
  holds_none_of_invalid)

/-- What the memory holds behind a read. -/
theorem holds_read {m : Sram} {box : Option AppShared} (autoErase : AutoErase)
    (h : Holds AppShared.pod m box) :
    Holds AppShared.pod (AppSharedMarshaller.read AppShared.pod autoErase m).2
      (if (AppSharedMarshaller.read AppShared.pod autoErase m).1.2 ∧ autoErase = .eraseAfterRead
        then none else box) := by
  cases box with
  | none =>
      have hsame : (AppSharedMarshaller.read AppShared.pod autoErase m).2 = m :=
        (read_of_holds_none h).2
      rw [hsame, ite_self]
      exact h
  | some v =>
      rw [read_of_holds_some h]
      cases autoErase with
      | eraseAfterRead => exact holds_erase crc64_zeros
      | doNotErase => exact h

/-- Both sides read in the same way. -/
theorem perform_readAndErase (side : Side) (m : Sram) : perform side .readAndErase m =
    (some (AppSharedMarshaller.read AppShared.pod .eraseAfterRead m).1,
      (AppSharedMarshaller.read AppShared.pod .eraseAfterRead m).2) := by
  cases side <;> rfl

/-- One operation keeps memory and mailbox together. -/
theorem step_holds {m m' : Sram} {box : Option AppShared} {e : Event}
    (h : Holds AppShared.pod m box) (hst : perform e.side e.op m = (e.returned, m')) :
    Holds AppShared.pod m' (Access.apply box e.access) := by
  cases e with
  | mk side op returned =>
      cases op with
      | write v => cases side <;> cases hst <;> exact holds_write
      | erase =>
          cases hst
          exact holds_erase crc64_zeros
      | read =>
          have hread := holds_read .doNotErase h
          rw [if_neg (fun hall => by cases hall.2)] at hread
          cases hst
          exact hread
      | readAndErase =>
          have hread := holds_read .eraseAfterRead h
          rw [perform_readAndErase] at hst
          obtain ⟨rfl, rfl⟩ := Prod.mk.injEq .. ▸ hst
          by_cases hvalid : (AppSharedMarshaller.read AppShared.pod .eraseAfterRead m).1.2 = true
          · rw [if_pos ⟨hvalid, rfl⟩] at hread
            rw [Event.access, Event.valid, if_pos hvalid]
            exact hread
          · rw [if_neg (fun hall => hvalid hall.1)] at hread
            rw [Event.access, Event.valid, if_neg hvalid]
            exact hread

/-- The memory holds what the history says. -/
theorem run_holds {m₀ m m' : Sram} {history : List Event} (hrun : (machine m₀).Run m history m') :
    ∀ {box : Option AppShared}, Holds AppShared.pod m box →
      Holds AppShared.pod m' ((history.map Event.access).foldl Access.apply box) := by
  induction hrun with
  | nil => exact fun h => h
  | cons hst _ ih => exact fun h => ih (step_holds h hst)

/-- From a memory without a valid structure on, a read is valid exactly when
a structure was written and neither erased nor read out of the memory since,
and then it returns that structure.  An invalid read changes nothing. -/
theorem exchange {m₀ m : Sram} {history : List Event} (autoErase : AutoErase)
    (h₀ : (AppSharedMarshaller.read AppShared.pod .doNotErase m₀).1.2 = false)
    (hrun : (machine m₀).Run m₀ history m) :
    ((AppSharedMarshaller.read AppShared.pod autoErase m).1.2 = true ↔
        ∃ v, LastWritten history v) ∧
      (∀ v, LastWritten history v →
        (AppSharedMarshaller.read AppShared.pod autoErase m).1 = (v, true)) ∧
      ((AppSharedMarshaller.read AppShared.pod autoErase m).1.2 = false →
        (AppSharedMarshaller.read AppShared.pod autoErase m).2 = m) := by
  have hholds := run_holds hrun (holds_none_of_invalid h₀)
  refine ⟨?_, fun v hv => ?_, fun hinv => ?_⟩
  · rw [AppSharedMarshaller.read_valid_iff hholds]
    simp only [← content_eq_some_iff]
    rfl
  · have hbox : (history.map Event.access).foldl Access.apply none = some v :=
      content_eq_some_iff.mpr hv
    rw [hbox] at hholds
    rw [read_of_holds_some hholds]
  · exact (read_of_holds_none (holds_none_of_invalid hinv)).2

/-- The application writes, the bootloader reads. -/
theorem exchange_of_write :
    let v : AppShared := { uavcanNodeId := 5, stayInBootloader := true }
    let m₀ := AppSharedMarshaller.erase AppShared.pod
      ⟨List.replicate 256 0xA5, List.length_replicate ..⟩
    (BootloaderAppInterface.readAndErase (BootloaderInterface.writeSharedStruct v m₀)).1
      = (v, true) := by
  intro v m₀
  have hrun : (machine m₀).Run m₀ [⟨.application, .write v, none⟩]
      (BootloaderInterface.writeSharedStruct v m₀) := .cons rfl .nil
  have hall := exchange .eraseAfterRead (holds_erase crc64_zeros) hrun
  exact hall.2.1 v ⟨[], _, [], rfl, rfl, fun d hd => by cases hd⟩

end AppExchange

end UavcanAdapter
