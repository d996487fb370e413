/-
# `Config.Eeprom` — the storage in an EEPROM on the I2C bus

`class ConfigStorageBackend_eeprom`, over a memory with a word address of
one byte whose writes wrap inside their page.  How the transmissions on
the bus end is left open; one that breaks off may have brought over some of its
bytes.

A write that crosses a page boundary is sent in two parts, and the second
part is copied from the beginning of the data again.  So the storage is a
faithful one only as long as that makes no difference: `Sound` says when it
does not, and `faithful_iff` that this is exactly when a write does what it
reports.
-/
import UavcanAdapter.Base.Cells
import UavcanAdapter.Bootloader.Types
import UavcanAdapter.Config.Store

namespace UavcanAdapter

open Base

/-- How a transmission on the bus ends. -/
inductive Transmission
  /-- `MSG_OK` -/
  | ok
  /-- with an error, behind the first `taken` bytes of data -/
  | broken (taken : Nat)
deriving DecidableEq, Repr

/-- The device, what the transmissions to come will end with, and the word
address and the number of data bytes of those there were. -/
structure Eeprom where
  cells : Nat → UInt8
  bus : List Transmission
  sent : List (Nat × Nat) := []

/-- `class ConfigStorageBackend_eeprom`, with what its constructor asserts. -/
structure ConfigStorageBackendEeprom where
  size : Nat
  pageSize : Nat
  /-- the byte of the microcontroller's memory at address `0xFF` -/
  byteAtFF : UInt8 := 0
  size_pos : 0 < size
  pageSize_pos : 0 < pageSize
  size_lt : size < 2 ^ 32

namespace ConfigStorageBackendEeprom

variable (e : ConfigStorageBackendEeprom)

/-! ## The code -/

/-- `i2cMasterTransmitTimeout` of a word address and the data behind it: the
device puts the data into the page of the word address. -/
def transmit (word : Nat) (data : List UInt8) : Prog Eeprom Bool := fun d =>
  match d.bus with
  | [] => (d, .error .hang)
  | .ok :: bus =>
      ({ cells := pageWrite e.pageSize d.cells word data, bus,
         sent := d.sent ++ [(word, data.length)] }, .ok true)
  | .broken taken :: bus =>
      ({ cells := pageWrite e.pageSize d.cells word (data.take taken), bus,
         sent := d.sent ++ [(word, data.length)] }, .ok false)

/-- `i2cMasterTransmitTimeout` of a word address, followed by the reception
of a buffer: the device sends its cells from the word address on. -/
def receive (word : Nat) (buffer : List UInt8) : Prog Eeprom (Bool × List UInt8) := fun d =>
  let cells := (List.range buffer.length).map fun i => d.cells ((word + i) % e.size)
  match d.bus with
  | [] => (d, .error .hang)
  | .ok :: bus => ({ d with bus, sent := d.sent ++ [(word, 0)] }, .ok (true, cells))
  | .broken taken :: bus =>
      ({ d with bus, sent := d.sent ++ [(word, 0)] },
        .ok (false, cells.take taken ++ buffer.drop taken))

/-- The loop of `wait_for_write_end`, over the transmissions to come. -/
def poll : Nat → Prog Eeprom Unit
  | 0 => Prog.lift (.error .hang)
  | n + 1 => do
      let ok ← e.transmit e.byteAtFF.toNat []
      if ok then return () else poll n

/-- `wait_for_write_end`. -/
def waitForWriteEnd : Prog Eeprom Unit := fun d => e.poll d.bus.length d

/-- What `write` does for each part it sends. -/
def send (addr : Nat) (data : List UInt8) : Prog Eeprom Int := do
  let ok ← e.transmit (addr % 2 ^ 8) data
  if ok then
    e.waitForWriteEnd
    return 0
  else return -einval

def read (offset : Nat) (data : List UInt8) : Prog Eeprom (Int × List UInt8) := do
  Prog.assert (wrap32 (offset + data.length) ≤ e.size)
  let (ok, data) ← e.receive (offset % 2 ^ 8) data
  return (if ok then 0 else -einval, data)

def write (offsetTmp : Nat) (b : List UInt8) : Prog Eeprom Int := do
  let len := b.length
  Prog.assert (wrap32 (offsetTmp + len) ≤ e.size)
  let addr := offsetTmp % 2 ^ 16
  let offset := addr % 2 ^ 8 % e.pageSize
  -- the halt with "EEPROM full"
  Prog.assert (wrap32 (addr + len) ≤ e.size)
  if len > e.pageSize ∨ len = 0 then return -einval
  else if wrap32 (offset + len) ≤ e.pageSize then e.send addr b
  else do
    let dataSize := e.pageSize - offset
    let res ← e.send addr (b.take dataSize)
    if res ≠ 0 then return res
    -- the second part is copied from `b` as well, not from behind the first
    else e.send ((addr + dataSize) % 2 ^ 16) (b.take (len - dataSize))

def erase : Prog Eeprom Int := pure 0

def storage : IStorageBackend Eeprom where
  read := e.read
  write := e.write
  erase := ConfigStorageBackendEeprom.erase

variable {e} {d d' : Eeprom} {offset word addr : Nat} {data : List UInt8} {res : Int}

/-! ## Its parts -/

theorem transmit_eq_ok {ok : Bool} (h : e.transmit word data d = (d', .ok ok)) :
    ∃ n, (ok = true → n = data.length) ∧
      d'.cells = pageWrite e.pageSize d.cells word (data.take n) ∧
      d'.sent = d.sent ++ [(word, data.length)] := by
  rw [transmit] at h
  split at h
  · cases h
  · cases h
    exact ⟨data.length, fun _ => rfl, by rw [List.take_length], rfl⟩
  · rename_i taken _ _
    cases h
    exact ⟨taken, fun hok => absurd hok Bool.false_ne_true, rfl, rfl⟩

/-- Polling sends no data. -/
theorem poll_eq_ok : ∀ (n : Nat) (d : Eeprom), e.poll n d = (d', .ok ()) →
    d'.cells = d.cells ∧ ∃ sent, d'.sent = d.sent ++ sent ∧ ∀ t ∈ sent, t.2 = 0
  | 0, _, h => by cases h
  | n + 1, d, h => by
      obtain ⟨d₁, ok, htr, hrest⟩ := Prog.bind_eq_ok.mp h
      obtain ⟨k, -, hcells, hsent⟩ := transmit_eq_ok htr
      rw [List.take_nil, pageWrite] at hcells
      cases ok with
      | true =>
          obtain ⟨rfl, -⟩ := Prog.pure_eq_ok.mp hrest
          exact ⟨hcells, _, hsent, by simp⟩
      | false =>
          obtain ⟨hcells', sent, hsent', hall⟩ := poll_eq_ok n d₁ hrest
          refine ⟨hcells'.trans hcells, (e.byteAtFF.toNat, 0) :: sent, ?_, ?_⟩
          · rw [hsent', hsent]
            simp
          · simpa using hall

/-- A part that is sent arrives as a whole if the result is zero, and else
up to some point. -/
theorem send_eq_ok (h : e.send addr data d = (d', .ok res)) :
    ∃ n, (res = 0 → n = data.length) ∧
      d'.cells = pageWrite e.pageSize d.cells (addr % 2 ^ 8) (data.take n) ∧
      ∃ sent, d'.sent = d.sent ++ sent ∧
        ∀ t ∈ sent, t.2 = 0 ∨ t = (addr % 2 ^ 8, data.length) := by
  obtain ⟨d₁, ok, htr, hrest⟩ := Prog.bind_eq_ok.mp h
  obtain ⟨n, hn, hcells, hsent⟩ := transmit_eq_ok htr
  cases ok with
  | true =>
      obtain ⟨d₂, _, hpoll, hret⟩ := Prog.bind_eq_ok.mp hrest
      obtain ⟨rfl, rfl⟩ := Prog.pure_eq_ok.mp hret
      obtain ⟨hcells', sent, hsent', hall⟩ := poll_eq_ok _ d₁ hpoll
      refine ⟨n, fun _ => hn rfl, hcells'.trans hcells,
        (addr % 2 ^ 8, data.length) :: sent, ?_, ?_⟩
      · rw [hsent', hsent]
        simp
      · rw [List.forall_mem_cons]
        exact ⟨Or.inr rfl, fun t ht => Or.inl (hall t ht)⟩
  | false =>
      obtain ⟨rfl, rfl⟩ := Prog.pure_eq_ok.mp hrest
      exact ⟨n, fun h0 => absurd h0 (by decide), hcells, _, hsent, by simp⟩

/-- On a bus without errors a part goes through. -/
theorem send_of_ok {bus : List Transmission} (h : d.bus = .ok :: .ok :: bus) :
    e.send addr data d =
      ({ cells := pageWrite e.pageSize d.cells (addr % 2 ^ 8) data, bus,
         sent := d.sent ++ [(addr % 2 ^ 8, data.length)] ++ [(e.byteAtFF.toNat, 0)] }, .ok 0) := by
  rcases d with ⟨cells, _, sent⟩
  cases h
  rfl

/-! ## What a write sends -/

variable (e) in
/-- The cells from `w` to the end of its page. -/
def room (w : Nat) : Nat := e.pageSize - w % e.pageSize

variable (e) in
/-- The word addresses and the data of the parts that `write` sends. -/
def parts (offset : Nat) (data : List UInt8) : List (Nat × List UInt8) :=
  let w := offset % 256
  if w % e.pageSize + data.length ≤ e.pageSize then [(w, data)]
  else
    [(w, data.take (e.room w)),
      ((offset + e.room w) % 256, data.take (data.length - e.room w))]

variable (e) in
/-- The cells after some parts have arrived. -/
def arrived (ps : List (Nat × List UInt8)) (m : Nat → UInt8) : Nat → UInt8 :=
  ps.foldl (fun m part => pageWrite e.pageSize m part.1 part.2) m

variable (e) in
/-- Data of at most a page, inside the storage. -/
structure InRange (offset : Nat) (data : List UInt8) : Prop where
  pos : 0 < data.length
  le : data.length ≤ e.pageSize
  fits : offset + data.length ≤ e.size

variable (e) in
/-- The word address is not truncated, and a second part is what the first
one begins with. -/
def Sound (offset : Nat) (data : List UInt8) : Prop :=
  offset < 256 ∧
    (offset % e.pageSize + data.length ≤ e.pageSize ∨
      offset + e.room offset < 256 ∧
        data.drop (e.room offset) = data.take (data.length - e.room offset))

theorem arrived_single (w : Nat) (bs : List UInt8) (m : Nat → UInt8) :
    e.arrived [(w, bs)] m = pageWrite e.pageSize m w bs := rfl

theorem arrived_pair (w w' : Nat) (bs cs : List UInt8) (m : Nat → UInt8) :
    e.arrived [(w, bs), (w', cs)] m =
      pageWrite e.pageSize (pageWrite e.pageSize m w bs) w' cs := rfl

theorem room_add (w : Nat) : w % e.pageSize + e.room w = e.pageSize := by
  have hlt := Nat.mod_lt w e.pageSize_pos
  rw [room]
  omega

theorem add_room_mod (w : Nat) : (w + e.room w) % e.pageSize = 0 := by
  have hdiv := Nat.div_add_mod w e.pageSize
  have hsum : w + e.room w = e.pageSize * (w / e.pageSize + 1) := by
    have hroom := room_add (e := e) w
    rw [Nat.mul_add, Nat.mul_one]
    omega
  rw [hsum, Nat.mul_mod_right]

theorem write_of_inRange (h : e.InRange offset data) :
    e.write offset data =
      if offset % 256 % e.pageSize + data.length ≤ e.pageSize then e.send (offset % 2 ^ 16) data
      else (do
        let res ← e.send (offset % 2 ^ 16) (data.take (e.room (offset % 256)))
        if res ≠ 0 then return res
        else
          e.send ((offset % 2 ^ 16 + e.room (offset % 256)) % 2 ^ 16)
            (data.take (data.length - e.room (offset % 256)))) := by
  have hlt := e.size_lt
  have hpos := h.pos
  have hfits := h.fits
  have hle := h.le
  have hword : offset % 2 ^ 16 % 2 ^ 8 = offset % 256 := Nat.mod_mod_of_dvd offset (by decide)
  have haddr : offset % 2 ^ 16 ≤ offset := Nat.mod_le _ _
  have hoff : offset % 256 % e.pageSize ≤ offset := (Nat.mod_le _ _).trans (Nat.mod_le _ _)
  simp only [write, hword]
  rw [wrap32_of_lt (by omega), wrap32_of_lt (by omega), wrap32_of_lt (by omega),
    Prog.assert_bind hfits, Prog.assert_bind (by omega), if_neg (by omega)]
  rfl

theorem word_eq (offset : Nat) : offset % 2 ^ 16 % 2 ^ 8 = offset % 256 :=
  Nat.mod_mod_of_dvd offset (by decide)

theorem word_add_eq (offset k : Nat) :
    (offset % 2 ^ 16 + k) % 2 ^ 16 % 2 ^ 8 = (offset + k) % 256 := by
  rw [Nat.mod_add_mod, word_eq]

/-- What a write has brought over when it returns: the parts it sends, or
what came before an error. -/
theorem write_eq_ok (hr : e.InRange offset data) (h : e.write offset data d = (d', .ok res)) :
    ∃ ps, d'.cells = e.arrived ps d.cells ∧ (res = 0 → ps = e.parts offset data) ∧
      (∀ p ∈ ps, ∃ part ∈ e.parts offset data, p.1 = part.1 ∧ p.2 <+: part.2) ∧
      ∃ sent, d'.sent = d.sent ++ sent ∧
        ∀ t ∈ sent, t.2 = 0 ∨ ∃ part ∈ e.parts offset data, t = (part.1, part.2.length) := by
  rw [write_of_inRange hr] at h
  rw [parts]
  split at h
  · rename_i hfits
    obtain ⟨n, hn, hcells, sent, hsent, hall⟩ := send_eq_ok h
    rw [word_eq] at hcells hall
    rw [if_pos hfits]
    refine ⟨[(offset % 256, data.take n)], hcells, ?_, ?_, sent, hsent, ?_⟩
    · intro h0
      rw [hn h0, List.take_length]
    · simpa using List.take_prefix n data
    · exact fun t ht => (hall t ht).imp_right fun h => ⟨_, List.mem_cons_self, h⟩
  · rename_i hcross
    obtain ⟨d₁, res₁, hfirst, hrest⟩ := Prog.bind_eq_ok.mp h
    obtain ⟨n, hn, hcells, sent, hsent, hall⟩ := send_eq_ok hfirst
    rw [word_eq] at hcells hall
    rw [if_neg hcross]
    split at hrest
    · rename_i hne
      obtain ⟨rfl, rfl⟩ := Prog.pure_eq_ok.mp hrest
      refine ⟨[(offset % 256, (data.take (e.room (offset % 256))).take n)], hcells,
        fun h0 => absurd h0 hne, ?_, sent, hsent, ?_⟩
      · simpa using Or.inl (List.take_prefix n _)
      · exact fun t ht => (hall t ht).imp_right fun h => ⟨_, List.mem_cons_self, h⟩
    · rename_i hres₁
      obtain ⟨n', hn', hcells', sent', hsent', hall'⟩ := send_eq_ok hrest
      rw [word_add_eq] at hcells' hall'
      rw [hn (not_not.mp hres₁), List.take_length] at hcells
      refine ⟨[(offset % 256, data.take (e.room (offset % 256))),
        ((offset + e.room (offset % 256)) % 256,
          (data.take (data.length - e.room (offset % 256))).take n')],
        ?_, ?_, ?_, sent ++ sent', ?_, ?_⟩
      · rw [hcells', hcells]
        rfl
      · intro h0
        rw [hn' h0, List.take_length]
      · rintro p hp
        rcases List.mem_pair.mp hp with rfl | rfl
        · exact ⟨_, List.mem_cons_self, rfl, List.prefix_rfl⟩
        · exact ⟨_, List.mem_cons_of_mem _ List.mem_cons_self, rfl, List.take_prefix n' _⟩
      · rw [hsent', hsent, List.append_assoc]
      · intro t ht
        rcases List.mem_append.mp ht with ht | ht
        · exact (hall t ht).imp_right fun h => ⟨_, List.mem_cons_self, h⟩
        · exact (hall' t ht).imp_right fun h =>
            ⟨_, List.mem_cons_of_mem _ List.mem_cons_self, h⟩

/-- On a bus without errors a write goes through. -/
theorem write_of_ok (hr : e.InRange offset data) (m : Nat → UInt8) :
    ∃ d', e.write offset data { cells := m, bus := [.ok, .ok, .ok, .ok] } = (d', .ok 0) := by
  rw [write_of_inRange hr]
  split
  · exact ⟨_, send_of_ok rfl⟩
  · rw [Prog.bind_of_ok (send_of_ok rfl), if_neg (by decide)]
    exact ⟨_, send_of_ok rfl⟩

/-! ## When a write is right -/

/-- In a sound write every part ends in its page and inside the range. -/
theorem parts_of_sound (hr : e.InRange offset data) (hs : e.Sound offset data) :
    ∀ part ∈ e.parts offset data, part.1 % e.pageSize + part.2.length ≤ e.pageSize ∧
      offset ≤ part.1 ∧ part.1 + part.2.length ≤ offset + data.length := by
  obtain ⟨hlt, hs⟩ := hs
  have hle := hr.le
  have hroom := room_add (e := e) offset
  rw [parts, Nat.mod_eq_of_lt hlt]
  split
  · rename_i hfits
    simpa using hfits
  · rename_i hcross
    obtain ⟨hlt', -⟩ := hs.resolve_left hcross
    rw [Nat.mod_eq_of_lt hlt']
    simp only [List.forall_mem_cons, List.length_take, add_room_mod, List.not_mem_nil,
      false_implies, implies_true, and_true]
    omega

/-- What a write across a boundary leaves, in front of cell 256. -/
theorem arrived_parts_of_cross (hlt : offset < 256)
    (hcross : ¬offset % e.pageSize + data.length ≤ e.pageSize) (m : Nat → UInt8) :
    e.arrived (e.parts offset data) m =
      pageWrite e.pageSize (store m offset (data.take (e.room offset)))
        ((offset + e.room offset) % 256) (data.take (data.length - e.room offset)) := by
  have hroom := room_add (e := e) offset
  have hfirst : offset % e.pageSize + (data.take (e.room offset)).length ≤ e.pageSize := by
    rw [List.length_take]
    omega
  rw [parts, Nat.mod_eq_of_lt hlt, if_neg hcross, arrived_pair, pageWrite_eq_store _ _ _ hfirst]

/-- A second part in front of cell 256 is stored behind the boundary. -/
theorem pageWrite_second (hlt : offset + e.room offset < 256) (hle : data.length ≤ e.pageSize)
    (hcross : ¬offset % e.pageSize + data.length ≤ e.pageSize) (m : Nat → UInt8) :
    pageWrite e.pageSize (store m offset (data.take (e.room offset)))
        ((offset + e.room offset) % 256) (data.take (data.length - e.room offset)) =
      store m offset
        (data.take (e.room offset) ++ data.take (data.length - e.room offset)) := by
  have hroom := room_add (e := e) offset
  have hsecond : (offset + e.room offset) % e.pageSize +
      (data.take (data.length - e.room offset)).length ≤ e.pageSize := by
    rw [add_room_mod, List.length_take]
    omega
  rw [Nat.mod_eq_of_lt hlt, pageWrite_eq_store _ _ _ hsecond, store_take_store (by omega)]

theorem arrived_parts_of_sound (hr : e.InRange offset data) (hs : e.Sound offset data)
    (m : Nat → UInt8) : e.arrived (e.parts offset data) m = store m offset data := by
  obtain ⟨hlt, hs⟩ := hs
  by_cases hfits : offset % e.pageSize + data.length ≤ e.pageSize
  · rw [parts, Nat.mod_eq_of_lt hlt, if_pos hfits, arrived_single, pageWrite_eq_store _ _ _ hfits]
  · obtain ⟨hlt', heq⟩ := hs.resolve_left hfits
    rw [arrived_parts_of_cross hlt hfits, pageWrite_second hlt' hr.le hfits, ← heq,
      List.take_append_drop]

/-- The first part overwrites its first cell, whatever was there. -/
theorem arrived_parts_word (hr : e.InRange offset data) (m m' : Nat → UInt8) :
    e.arrived (e.parts offset data) m (offset % 256) =
      e.arrived (e.parts offset data) m' (offset % 256) := by
  have hstore : ∀ (bs : List UInt8), offset % 256 % e.pageSize + bs.length ≤ e.pageSize →
      0 < bs.length → pageWrite e.pageSize m (offset % 256) bs (offset % 256) =
        pageWrite e.pageSize m' (offset % 256) bs (offset % 256) := by
    intro bs hfits hpos
    have hget : bs[0]? = some bs[0] := List.getElem?_eq_getElem hpos
    rw [pageWrite_eq_store _ _ _ hfits, pageWrite_eq_store _ _ _ hfits]
    exact (store_add (a := offset % 256) hget).trans (store_add (a := offset % 256) hget).symm
  have hpos := hr.pos
  have hroom := room_add (e := e) (offset % 256)
  have hmod := Nat.mod_lt (offset % 256) e.pageSize_pos
  rw [parts]
  split
  · rename_i hfits
    exact hstore data hfits hpos
  · apply pageWrite_congr
    apply hstore
    · rw [List.length_take]
      omega
    · rw [List.length_take]
      omega

section Necessity

variable (hr : e.InRange offset data)
  (h : ∀ m, e.arrived (e.parts offset data) m = store m offset data)
include hr h

/-- With a truncated word address the first cell that is overwritten lies in
front of the range. -/
theorem offset_lt_of_arrived : offset < 256 := by
  by_contra hge
  have hword : offset % 256 < offset := by omega
  have hkeep : ∀ c : UInt8, e.arrived (e.parts offset data) (fun _ => c) (offset % 256) = c := by
    intro c
    rw [h, store_of_lt hword]
  have h01 : (0 : UInt8) = 1 := by
    rw [← hkeep 0, arrived_parts_word hr _ fun _ => 1, hkeep 1]
  exact absurd h01 (by decide)

/-- With a truncated address of the second part the page behind the boundary
is not reached. -/
theorem second_lt_of_arrived (hcross : ¬offset % e.pageSize + data.length ≤ e.pageSize) :
    offset + e.room offset < 256 := by
  by_contra hge
  have hlt := offset_lt_of_arrived hr h
  have hroom := room_add (e := e) offset
  have hmod := Nat.mod_lt offset e.pageSize_pos
  have hpage : (offset + e.room offset) / e.pageSize ≠
      (offset + e.room offset) % 256 / e.pageSize := by
    intro heq
    have hdiv := Nat.div_add_mod (offset + e.room offset) e.pageSize
    have hdiv' := Nat.div_add_mod ((offset + e.room offset) % 256) e.pageSize
    rw [add_room_mod, heq] at hdiv
    omega
  obtain ⟨b, hget⟩ : ∃ b, data[e.room offset]? = some b :=
    ⟨_, List.getElem?_eq_getElem (by omega)⟩
  have hkeep : ∀ c : UInt8, b = c := by
    intro c
    have hcell := congrFun (h fun _ => c) (offset + e.room offset)
    rw [arrived_parts_of_cross hlt hcross, pageWrite_of_ne e.pageSize_pos _ _ _ hpage,
      store_of_ge (by rw [List.length_take]; omega), store_add hget] at hcell
    exact hcell.symm
  exact absurd ((hkeep 0).symm.trans (hkeep 1)) (by decide)

/-- If a write is right whatever the cells held, it is a sound one. -/
theorem sound_of_arrived : e.Sound offset data := by
  have hlt := offset_lt_of_arrived hr h
  refine ⟨hlt, or_iff_not_imp_left.mpr fun hcross => ?_⟩
  have hlt' := second_lt_of_arrived hr h hcross
  refine ⟨hlt', ?_⟩
  have hroom := room_add (e := e) offset
  have hmod := Nat.mod_lt offset e.pageSize_pos
  have hstore := h fun _ => 0
  rw [arrived_parts_of_cross hlt hcross, pageWrite_second hlt' hr.le hcross] at hstore
  have hlists : data.take (e.room offset) ++ data.take (data.length - e.room offset) = data :=
    store_injective (by simp; omega) hstore
  have hcancel : data.take (e.room offset) ++ data.drop (e.room offset) =
      data.take (e.room offset) ++ data.take (data.length - e.room offset) := by
    rw [List.take_append_drop, hlists]
  exact List.append_cancel_left hcancel

end Necessity

variable (e) in
/-- A write that reports success leaves the data in its range and all other
cells as they were, and no transmission crosses a page boundary. -/
def WritesFaithfully (offset : Nat) (data : List UInt8) : Prop :=
  ∀ d d', e.write offset data d = (d', .ok 0) →
    d'.cells = store d.cells offset data ∧
      ∃ sent, d'.sent = d.sent ++ sent ∧ ∀ t ∈ sent, t.1 % e.pageSize + t.2 ≤ e.pageSize

theorem writesFaithfully_iff (hr : e.InRange offset data) :
    e.WritesFaithfully offset data ↔ e.Sound offset data := by
  constructor
  · intro h
    apply sound_of_arrived hr
    intro m
    obtain ⟨d', hd'⟩ := write_of_ok hr m
    obtain ⟨ps, hcells, hps, -⟩ := write_eq_ok hr hd'
    rw [← hps rfl, ← hcells]
    exact (h _ _ hd').1
  · intro hs d d' h
    obtain ⟨ps, hcells, hps, -, sent, hsent, hall⟩ := write_eq_ok hr h
    refine ⟨?_, sent, hsent, ?_⟩
    · rw [hcells, hps rfl, arrived_parts_of_sound hr hs]
    · intro t ht
      rcases hall t ht with h0 | ⟨part, hpart, rfl⟩
      · rw [h0, Nat.add_zero]
        exact (Nat.mod_lt _ e.pageSize_pos).le
      · exact (parts_of_sound hr hs part hpart).1

/-- What arrived of a sound write, when it was cut off, lies in the range. -/
theorem write_keeps {x : Nat} (hr : e.InRange offset data) (hs : e.Sound offset data)
    (h : e.write offset data d = (d', .ok res)) (hx : x < offset ∨ offset + data.length ≤ x) :
    d'.cells x = d.cells x := by
  obtain ⟨ps, hcells, -, hps, -⟩ := write_eq_ok hr h
  rw [hcells]
  clear hcells h
  generalize d.cells = m
  induction ps generalizing m with
  | nil => rfl
  | cons p ps ih =>
      obtain ⟨hp, hps⟩ := List.forall_mem_cons.mp hps
      obtain ⟨part, hpart, hword, hprefix⟩ := hp
      obtain ⟨hfits, hlo, hhi⟩ := parts_of_sound hr hs part hpart
      have hlen := hprefix.length_le
      have hstore : pageWrite e.pageSize m p.1 p.2 x = m x := by
        rw [pageWrite_eq_store _ _ _ (by rw [hword]; omega)]
        rcases hx with hx | hx
        · exact store_of_lt (by omega)
        · exact store_of_ge (by omega)
      rw [← hstore]
      exact ih hps _

/-! ## Reading -/

theorem read_eq_ok {buffer : List UInt8} (h : e.read offset buffer d = (d', .ok (res, data))) :
    d'.cells = d.cells ∧ (res = 0 → data =
      (List.range buffer.length).map fun i => d.cells ((offset % 256 + i) % e.size)) := by
  obtain ⟨d₁, _, hassert, hrest⟩ := Prog.bind_eq_ok.mp h
  obtain ⟨rfl, -⟩ := Prog.assert_eq_ok.mp hassert
  obtain ⟨d₂, ⟨ok, data'⟩, hrecv, hret⟩ := Prog.bind_eq_ok.mp hrest
  obtain ⟨rfl, hpair⟩ := Prog.pure_eq_ok.mp hret
  rw [receive] at hrecv
  split at hrecv
  · cases hrecv
  · cases hrecv
    cases hpair
    exact ⟨rfl, fun _ => rfl⟩
  · cases hrecv
    cases hpair
    exact ⟨rfl, fun h0 => absurd h0 (by decide)⟩

variable (e) in
/-- A read that reports success returns the cells of its range. -/
def ReadsFaithfully (offset len : Nat) : Prop :=
  ∀ d d' buffer data, buffer.length = len → e.read offset buffer d = (d', .ok (0, data)) →
    data = load d.cells offset len

theorem readsFaithfully_iff {len : Nat} (hfits : offset + len ≤ e.size) :
    e.ReadsFaithfully offset len ↔ len = 0 ∨ offset < 256 := by
  constructor
  · intro h
    by_contra hcon
    obtain ⟨hlen, hge⟩ := not_or.mp hcon
    let d : Eeprom := { cells := fun x => if x = offset then 1 else 0, bus := [.ok] }
    have hassert : wrap32 (offset + (List.replicate len (0 : UInt8)).length) ≤ e.size := by
      have hlt := e.size_lt
      rw [List.length_replicate, wrap32_of_lt (by omega)]
      exact hfits
    have hread : ∃ d', e.read offset (List.replicate len 0) d =
        (d', .ok (0, (List.range len).map fun i => d.cells ((offset % 2 ^ 8 + i) % e.size))) := by
      rw [read, Prog.assert_bind hassert]
      refine ⟨{ d with bus := [], sent := [(offset % 2 ^ 8, 0)] }, ?_⟩
      simp [d, receive, bind, pure]
    obtain ⟨d', hread⟩ := hread
    have hcells := h d d' _ _ List.length_replicate hread
    have hfirst := List.map_inj_left.mp hcells 0 (List.mem_range.mpr (Nat.pos_of_ne_zero hlen))
    have hmod : offset % 2 ^ 8 % e.size ≤ offset % 2 ^ 8 := Nat.mod_le _ _
    have hne : offset % 2 ^ 8 % e.size ≠ offset := by omega
    simp [d] at hfirst
    exact hne hfirst
  · intro h d d' buffer data hlen hread
    subst hlen
    obtain ⟨-, hdata⟩ := read_eq_ok hread
    rw [hdata rfl, load, List.map_inj_left]
    intro i hi
    have hi' := List.mem_range.mp hi
    have hlt := h.resolve_left (by omega)
    rw [Nat.mod_eq_of_lt hlt, Nat.mod_eq_of_lt (by omega)]

/-! ## Runs -/

/-- A call of a storage that has returned, with its result. -/
inductive Event
  | wrote (offset : Nat) (data : List UInt8) (res : Int)
  | got (offset : Nat) (data : List UInt8) (res : Int)
  | erased (res : Int)

/-- Calls of a storage, one after another. -/
inductive Run {σ : Type} (b : IStorageBackend σ) : σ → List Event → σ → Prop
  | nil {s : σ} : Run b s [] s
  | wrote {s s₁ s' : σ} {offset : Nat} {data : List UInt8} {res : Int} {evs : List Event} :
      b.write offset data s = (s₁, .ok res) → Run b s₁ evs s' →
        Run b s (.wrote offset data res :: evs) s'
  | got {s s₁ s' : σ} {offset : Nat} {data : List UInt8} {res : Int} {evs : List Event}
      (buffer : List UInt8) :
      b.read offset buffer s = (s₁, .ok (res, data)) → Run b s₁ evs s' →
        Run b s (.got offset data res :: evs) s'
  | erased {s s₁ s' : σ} {res : Int} {evs : List Event} :
      b.erase s = (s₁, .ok res) → Run b s₁ evs s' → Run b s (.erased res :: evs) s'

/-- What was written last to each cell.  After a write that reports an error
this is not known of the cells of its range; the erase of this storage does
nothing. -/
def Event.after (m : Nat → Option UInt8) : Event → Nat → Option UInt8
  | .wrote offset data res =>
      store m offset (if res = 0 then data.map some else List.replicate data.length none)
  | .got _ _ _ => m
  | .erased _ => m

/-- A read that reports success returns what was written last. -/
def Event.Agrees (m : Nat → Option UInt8) : Event → Prop
  | .wrote _ _ _ => True
  | .got offset data res =>
      res = 0 → ∀ (i : Nat) (v w : UInt8), data[i]? = some v → m (offset + i) = some w → v = w
  | .erased _ => True

/-- Every read of a run returns what was written last. -/
def ReadsLast : (Nat → Option UInt8) → List Event → Prop
  | _, [] => True
  | m, ev :: evs => ev.Agrees m ∧ ReadsLast (ev.after m) evs

variable (e) in
/-- The call is one that the code gets right. -/
def Proper : Event → Prop
  | .wrote offset data _ => e.InRange offset data ∧ e.Sound offset data
  | .got offset data _ => offset + data.length ≤ e.size ∧ (data.length = 0 ∨ offset < 256)
  | .erased _ => True

/-- What is known of the cells is right. -/
def Knows (m : Nat → Option UInt8) (d : Eeprom) : Prop :=
  ∀ x v, m x = some v → d.cells x = v

theorem knows_wrote {m : Nat → Option UInt8} (hk : Knows m d)
    (hp : e.Proper (.wrote offset data res)) (h : e.write offset data d = (d', .ok res)) :
    Knows (Event.after m (.wrote offset data res)) d' := by
  obtain ⟨hr, hs⟩ := hp
  intro x v hx
  rw [Event.after] at hx
  have hlen : (if res = 0 then data.map some
      else List.replicate data.length (none : Option UInt8)).length = data.length := by
    split <;> simp
  by_cases hin : x < offset ∨ offset + data.length ≤ x
  · have hold : m x = some v := by
      rcases hin with hlt | hge
      · rwa [store_of_lt hlt] at hx
      · rwa [store_of_ge (by rw [hlen]; exact hge)] at hx
    rw [write_keeps hr hs h hin]
    exact hk x v hold
  · obtain ⟨i, rfl⟩ : ∃ i, x = offset + i := ⟨x - offset, by omega⟩
    have hi : i < data.length := by omega
    have hget : data[i]? = some data[i] := List.getElem?_eq_getElem hi
    by_cases h0 : res = 0
    · subst h0
      have hnew : (data.map some)[i]? = some (some data[i]) := by simp [hget]
      rw [if_pos rfl, store_add hnew] at hx
      obtain ⟨ps, hcells, hps, -⟩ := write_eq_ok hr h
      rw [hcells, hps rfl, arrived_parts_of_sound hr hs, store_add hget]
      exact Option.some.inj hx
    · have hnew : (List.replicate data.length (none : Option UInt8))[i]? = some none := by
        simp [hi]
      rw [if_neg h0, store_add hnew] at hx
      cases hx

theorem agrees_got {m : Nat → Option UInt8} {buffer : List UInt8} (hk : Knows m d)
    (hp : e.Proper (.got offset data res)) (h : e.read offset buffer d = (d', .ok (res, data))) :
    Event.Agrees m (.got offset data res) := by
  obtain ⟨hfits, hlt⟩ := hp
  obtain ⟨-, hdata⟩ := read_eq_ok h
  intro h0 i v w hv hw
  obtain ⟨hi, -⟩ := List.getElem?_eq_some_iff.mp hv
  have hcells := hdata h0
  have hoff := hlt.resolve_left (by omega)
  rw [hcells, List.getElem?_map, List.getElem?_range (by simpa [hcells] using hi),
    Option.map_some, Option.some_inj, Nat.mod_eq_of_lt hoff, Nat.mod_eq_of_lt (by omega)] at hv
  rw [← hk _ w hw, hv]

/-- As long as the calls are ones that the code gets right, reads return
what was written last, and what the cells held at first. -/
theorem run_readsLast {evs : List Event} (h : Run e.storage d evs d')
    (hp : ∀ ev ∈ evs, e.Proper ev) {m : Nat → Option UInt8} (hk : Knows m d) :
    ReadsLast m evs := by
  induction h generalizing m with
  | nil => trivial
  | wrote hw _ ih =>
      obtain ⟨hhere, hrest⟩ := List.forall_mem_cons.mp hp
      exact ⟨trivial, ih hrest (knows_wrote hk hhere hw)⟩
  | got _ hr _ ih =>
      obtain ⟨hhere, hrest⟩ := List.forall_mem_cons.mp hp
      refine ⟨agrees_got hk hhere hr, ih hrest ?_⟩
      intro x v hx
      rw [(read_eq_ok hr).1]
      exact hk x v hx
  | erased he _ ih =>
      obtain ⟨-, hrest⟩ := List.forall_mem_cons.mp hp
      obtain ⟨rfl, -⟩ := Prog.pure_eq_ok.mp he
      exact ⟨trivial, ih hrest hk⟩

/-- The storage is a faithful one exactly for the sound writes and for the
reads in front of cell 256. -/
theorem faithful_iff (e : ConfigStorageBackendEeprom) :
    (∀ offset data, e.InRange offset data →
      (e.WritesFaithfully offset data ↔ e.Sound offset data)) ∧
    (∀ offset len, offset + len ≤ e.size →
      (e.ReadsFaithfully offset len ↔ len = 0 ∨ offset < 256)) ∧
    ∀ d d' evs, Run e.storage d evs d' → (∀ ev ∈ evs, e.Proper ev) →
      ReadsLast (fun x => some (d.cells x)) evs :=
  ⟨fun _ _ hr => writesFaithfully_iff hr, fun _ _ hfits => readsFaithfully_iff hfits,
    fun _ _ _ h hp => run_readsLast h hp fun _ _ hx => Option.some.inj hx⟩

/-- 256 cells in pages of 8. -/
def small : ConfigStorageBackendEeprom where
  size := 256
  pageSize := 8
  size_pos := by decide
  pageSize_pos := by decide
  size_lt := by decide

/-- A write that fits, one that crosses a boundary with data that repeats, a
read of the whole storage, and a run that reads what it wrote. -/
theorem faithful_iff_small :
    small.WritesFaithfully 8 [1, 2, 3] ∧ small.WritesFaithfully 6 [1, 2, 1, 2] ∧
      small.ReadsFaithfully 0 256 ∧
      ∃ d', Run small.storage { cells := fun _ => 0xFF, bus := [.ok, .ok, .ok] }
          [.wrote 8 [1, 2] 0, .got 9 [2, 0xFF] 0] d' ∧
        ReadsLast (fun _ => some 0xFF) [.wrote 8 [1, 2] 0, .got 9 [2, 0xFF] 0] := by
  obtain ⟨hwrite, hread, hrun⟩ := faithful_iff small
  have hsteps : ∃ d', Run small.storage { cells := fun _ => 0xFF, bus := [.ok, .ok, .ok] }
      [.wrote 8 [1, 2] 0, .got 9 [2, 0xFF] 0] d' :=
    ⟨_, .wrote rfl (.got [0, 0] rfl .nil)⟩
  obtain ⟨d', hsteps⟩ := hsteps
  refine ⟨(hwrite 8 [1, 2, 3] ⟨by decide, by decide, by decide⟩).mpr ⟨by decide, Or.inl (by decide)⟩,
    (hwrite 6 [1, 2, 1, 2] ⟨by decide, by decide, by decide⟩).mpr
      ⟨by decide, Or.inr ⟨by decide, by decide⟩⟩,
    (hread 0 256 (by decide)).mpr (Or.inr (by decide)), d', hsteps, hrun _ d' _ hsteps ?_⟩
  rw [List.forall_mem_cons, List.forall_mem_singleton]
  exact ⟨⟨⟨by decide, by decide, by decide⟩, by decide, Or.inl (by decide)⟩,
    by decide, Or.inr (by decide)⟩

/-- Four bytes across the boundary in front of cell 8: the last two are lost,
and the first two are there twice. -/
theorem faithful_fails :
    small.pageSize ∣ small.size ∧ small.InRange 6 [1, 2, 3, 4] ∧
      (∃ d', small.write 6 [1, 2, 3, 4]
          { cells := fun _ => 0xFF, bus := [.ok, .ok, .ok, .ok] } = (d', .ok 0) ∧
        (d'.cells 6, d'.cells 7, d'.cells 8, d'.cells 9) = (1, 2, 1, 2)) ∧
      ¬small.WritesFaithfully 6 [1, 2, 3, 4] := by
  have hrun : ∃ d', small.write 6 [1, 2, 3, 4]
      { cells := fun _ => 0xFF, bus := [.ok, .ok, .ok, .ok] } = (d', .ok 0) ∧
        (d'.cells 6, d'.cells 7, d'.cells 8, d'.cells 9) = (1, 2, 1, 2) := ⟨_, rfl, by decide⟩
  refine ⟨by decide, ⟨by decide, by decide, by decide⟩, hrun, ?_⟩
  intro h
  obtain ⟨d', hwrite, hcells⟩ := hrun
  have hstore := congrFun (h _ d' hwrite).1 8
  have h8 : d'.cells 8 = 1 := congrArg (fun t => t.2.2.1) hcells
  rw [h8] at hstore
  exact absurd hstore (by decide)

end ConfigStorageBackendEeprom

end UavcanAdapter
