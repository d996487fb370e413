/-
# `Bootloader.Storage` — the storage interface and the download sink

`IAppStorageBackend` is the interface the bootloader reaches the ROM
through.  The backend keeps its state in a type `σ` of its own; reading is
a `const` member function and leaves the state alone.  `Sink` is the proxy
that writes a download into the storage chunk by chunk.
-/
import UavcanAdapter.Base.Call
import UavcanAdapter.Bootloader.Types

namespace UavcanAdapter

open Base

/-- What a caller passes as `(const void* data, std::size_t size)`.  `addr`
is the address in RAM; `next` is the byte behind the data, which a writer
of halfwords reads too when the size is odd. -/
structure Chunk where
  bytes : List UInt8
  addr : Nat := 0x20000100
  next : UInt8 := 0
deriving DecidableEq, Repr

namespace Chunk

def size (c : Chunk) : Nat := c.bytes.length

/-- The byte of RAM `i` places after `data`. -/
def byteAt (c : Chunk) (i : Nat) : UInt8 := c.bytes.getD i c.next

theorem byteAt_of_lt {c : Chunk} {i : Nat} (h : i < c.size) :
    c.byteAt i = c.bytes.get ⟨i, h⟩ := by
  have h' : i < c.bytes.length := h
  simp [byteAt, List.getD_eq_getElem?_getD, h']

end Chunk

/-- `class IAppStorageBackend`.  A read returns the bytes it copied, whose
number is the result, or a negative error code; by the contract of the
interface it never copies more than was asked for. -/
structure IAppStorageBackend (σ : Type) where
  beginUpgrade : σ → Call (σ × Int)
  write : σ → Nat → Chunk → Call (σ × Int)
  endUpgrade : σ → Bool → Call (σ × Int)
  read : σ → Nat → Nat → Except Int (List UInt8)
  length_read_le : ∀ {s : σ} {offset size : Nat} {bs : List UInt8},
    read s offset size = .ok bs → bs.length ≤ size

/-- The storage holds exactly `content`, as far as reads of up to `chunk`
bytes can tell: a read past the end comes back short. -/
def IAppStorageBackend.Holds {σ : Type} (b : IAppStorageBackend σ) (s : σ) (chunk : Nat)
    (content : List UInt8) : Prop :=
  ∀ offset size, offset ≤ content.length + chunk → size ≤ chunk →
    b.read s offset size = .ok (slice content offset size)

/-- A storage in RAM, to run the bootloader on. -/
def ramStorage : IAppStorageBackend (List UInt8) where
  beginUpgrade s := .ok (s, 0)
  write s offset c := .ok (patch s offset c.bytes, c.size)
  endUpgrade s _ := .ok (s, 0)
  read s offset size := .ok (slice s offset size)
  length_read_le h := by
    cases h
    simp

/-- `class Sink`: the members that change or steer it. -/
structure Sink where
  maxImageSize : Nat
  offset : Nat := 0
deriving DecidableEq, Repr

/-- `Sink::handleNextDataChunk`.  A failed write moves the offset on just as
a complete one does; a short write does not. -/
def Sink.handleNextDataChunk {σ : Type} (b : IAppStorageBackend σ) (sink : Sink) (c : Chunk)
    (s : σ) : Call (σ × Sink × Int) :=
  if wrap32 (sink.offset + c.size) ≤ sink.maxImageSize then do
    let (s, res) ← b.write s sink.offset c
    if res ≥ 0 ∧ res ≠ toInt c.size then
      return (s, sink, -errAppStorageWriteFailure)
    return (s, { sink with offset := wrap32 (sink.offset + c.size) }, res)
  else
    .ok (s, sink, -errAppImageTooLarge)

section Sink

variable {σ : Type} {b : IAppStorageBackend σ} {sink sink' : Sink} {c : Chunk} {s s' : σ} {r : Int}

/-- All a call can do: refuse the chunk untouched, or issue one write at the
running offset. -/
theorem Sink.handle_cases (h : sink.handleNextDataChunk b c s = .ok (s', sink', r)) :
    (sink.maxImageSize < wrap32 (sink.offset + c.size) ∧ s' = s ∧ sink' = sink ∧
      r = -errAppImageTooLarge) ∨
    (wrap32 (sink.offset + c.size) ≤ sink.maxImageSize ∧ ∃ res,
      b.write s sink.offset c = .ok (s', res) ∧
      ((0 ≤ res ∧ res ≠ toInt c.size ∧ sink' = sink ∧ r = -errAppStorageWriteFailure) ∨
       ((res < 0 ∨ res = toInt c.size) ∧
         sink' = { sink with offset := wrap32 (sink.offset + c.size) } ∧ r = res))) := by
  unfold handleNextDataChunk at h
  split at h
  · rename_i hfit
    refine Or.inr ⟨hfit, ?_⟩
    obtain ⟨⟨s₁, res⟩, hw, h⟩ := Call.bind_eq_ok.mp h
    by_cases hshort : res ≥ 0 ∧ res ≠ toInt c.size
    · simp only [if_pos hshort] at h
      cases Call.pure_eq_ok.mp h
      exact ⟨res, hw, Or.inl ⟨hshort.1, hshort.2, rfl, rfl⟩⟩
    · simp only [if_neg hshort] at h
      cases Call.pure_eq_ok.mp h
      exact ⟨r, hw, Or.inr ⟨by omega, rfl, rfl⟩⟩
  · rename_i hbig
    cases h
    exact Or.inl ⟨by omega, rfl, rfl, rfl⟩

theorem Sink.handle_maxImageSize (h : sink.handleNextDataChunk b c s = .ok (s', sink', r)) :
    sink'.maxImageSize = sink.maxImageSize := by
  rcases Sink.handle_cases h with ⟨-, -, rfl, -⟩ | ⟨-, res, -, ⟨-, -, rfl, -⟩ | ⟨-, rfl, -⟩⟩ <;> rfl

/-- The offset never passes the image size limit. -/
theorem Sink.handle_offset_le (h : sink.handleNextDataChunk b c s = .ok (s', sink', r))
    (hle : sink.offset ≤ sink.maxImageSize) : sink'.offset ≤ sink'.maxImageSize := by
  rcases Sink.handle_cases h with ⟨-, -, rfl, -⟩ | ⟨hfit, res, -, ⟨-, -, rfl, -⟩ | ⟨-, rfl, -⟩⟩
  · exact hle
  · exact hle
  · exact hfit

end Sink

end UavcanAdapter
