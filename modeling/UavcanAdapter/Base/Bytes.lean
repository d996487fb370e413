/-
# `Base.Bytes` — little-endian integers and pieces of byte strings

`leBytes n v` is the `n`-byte little-endian image of `v`, and `leNat` reads
one back; each undoes the other up to the width.  `slice` cuts a piece out
of a string and `patch` overwrites one in place, which is all that reading
and writing at an offset comes to.
-/
import Mathlib.Tactic

namespace Base

/-! ## Little-endian integers -/

/-- The value of a little-endian byte string. -/
def leNat : List UInt8 → Nat
  | [] => 0
  | b :: bs => b.toNat + 256 * leNat bs

/-- The low `n` bytes of `v`, least significant first. -/
def leBytes : Nat → Nat → List UInt8
  | 0, _ => []
  | n + 1, v => UInt8.ofNat v :: leBytes n (v / 256)

@[simp] theorem length_leBytes : ∀ (n v : Nat), (leBytes n v).length = n
  | 0, _ => rfl
  | n + 1, v => by simp [leBytes, length_leBytes n]

theorem take_leBytes : ∀ {k n : Nat} (v : Nat), k ≤ n → (leBytes n v).take k = leBytes k v
  | 0, _, _, _ => by simp [leBytes]
  | k + 1, n + 1, v, h => by
      rw [leBytes, leBytes, List.take_succ_cons, take_leBytes (v / 256) (by omega)]

theorem leNat_lt : ∀ (bs : List UInt8), leNat bs < 256 ^ bs.length
  | [] => by simp [leNat]
  | b :: bs => by
      have hb : b.toNat < 256 := b.toNat_lt
      have ih := leNat_lt bs
      simp only [leNat, List.length_cons, Nat.pow_succ]
      omega

theorem leNat_leBytes : ∀ (n v : Nat), leNat (leBytes n v) = v % 256 ^ n
  | 0, v => by simp [leBytes, leNat, Nat.mod_one]
  | n + 1, v => by
      have hb : (UInt8.ofNat v).toNat = v % 256 := by simp
      rw [leBytes, leNat, leNat_leBytes n, hb, Nat.pow_succ', Nat.mod_mul]

theorem leNat_leBytes_of_lt {n v : Nat} (h : v < 256 ^ n) : leNat (leBytes n v) = v := by
  rw [leNat_leBytes, Nat.mod_eq_of_lt h]

theorem leBytes_leNat : ∀ (bs : List UInt8), leBytes bs.length (leNat bs) = bs
  | [] => rfl
  | b :: bs => by
      have hb : b.toNat < 256 := b.toNat_lt
      have hdiv : (b.toNat + 256 * leNat bs) / 256 = leNat bs := by omega
      have hlow : UInt8.ofNat (b.toNat + 256 * leNat bs) = b := by
        apply UInt8.toNat_inj.mp
        simp
      simp only [List.length_cons, leNat, leBytes, hdiv, hlow, leBytes_leNat bs]

/-! ## Pieces of a byte string -/

section Pieces

variable {α : Type}

/-- The `n` elements from offset `o` on, fewer where the list ends. -/
def slice (l : List α) (o n : Nat) : List α := (l.drop o).take n

@[simp] theorem length_slice (l : List α) (o n : Nat) :
    (slice l o n).length = min n (l.length - o) := by
  simp [slice]

theorem slice_zero (l : List α) (n : Nat) : slice l 0 n = l.take n := by
  simp [slice]

/-- Two adjacent pieces are one piece. -/
theorem slice_append_slice (l : List α) (o m n : Nat) :
    slice l o m ++ slice l (o + m) n = slice l o (m + n) := by
  rw [slice, slice, slice, List.take_add, List.drop_drop]

theorem slice_eq_nil {l : List α} {o n : Nat} (h : l.length ≤ o) : slice l o n = [] := by
  simp [slice, List.drop_eq_nil_of_le h]

/-- A piece of a prefix is a piece of the whole. -/
theorem slice_append_left {l r : List α} {o n : Nat} (h : o + n ≤ l.length) :
    slice (l ++ r) o n = slice l o n := by
  rw [slice, slice, List.drop_append_of_le_length (by omega),
    List.take_append_of_le_length (by simp; omega)]

theorem slice_slice {l : List α} {o n i k : Nat} (h : i + k ≤ n) :
    slice (slice l o n) i k = slice l (o + i) k := by
  simp only [slice, List.drop_take, List.take_take, List.drop_drop]
  congr 1
  omega

theorem getElem?_slice {l : List α} {o n i : Nat} (h : i < n) :
    (slice l o n)[i]? = l[o + i]? := by
  simp [slice, h]

/-- `l` with the elements from offset `o` on overwritten by `p`. -/
def patch (l : List α) (o : Nat) (p : List α) : List α :=
  l.take o ++ p ++ l.drop (o + p.length)

theorem length_patch {l p : List α} {o : Nat} (h : o + p.length ≤ l.length) :
    (patch l o p).length = l.length := by
  simp [patch]
  omega

/-- What was written is read back. -/
theorem slice_patch_self {l p : List α} {o : Nat} (h : o ≤ l.length) :
    slice (patch l o p) o p.length = p := by
  rw [slice, patch, List.append_assoc, List.drop_append_of_le_length (by simp; omega),
    List.drop_eq_nil_of_le (by simp), List.nil_append, List.take_left]

/-- Overwriting leaves what is in front of it alone. -/
theorem take_patch {l p : List α} {o n : Nat} (hn : n ≤ o) (ho : o ≤ l.length) :
    (patch l o p).take n = l.take n := by
  rw [patch, List.append_assoc, List.take_append_of_le_length (by simp; omega), List.take_take,
    Nat.min_eq_left hn]

/-- Overwriting leaves what is behind it alone. -/
theorem drop_patch {l p : List α} {o n : Nat} (hn : o + p.length ≤ n) (ho : o ≤ l.length) :
    (patch l o p).drop n = l.drop n := by
  have hlen : (l.take o ++ p).length = o + p.length := by simp; omega
  rw [patch, List.drop_append, List.drop_eq_nil_of_le (by omega), List.nil_append, List.drop_drop,
    hlen]
  congr 1
  omega

/-- The later of two writes of one size to one place wins. -/
theorem patch_patch {l p q : List α} {o : Nat} (hpq : p.length = q.length) (ho : o ≤ l.length) :
    patch (patch l o p) o q = patch l o q := by
  have htake := take_patch (p := p) (Nat.le_refl o) ho
  have hdrop := drop_patch (l := l) (p := p) (Nat.le_refl (o + p.length)) ho
  calc patch (patch l o p) o q
      = (patch l o p).take o ++ q ++ (patch l o p).drop (o + p.length) := by rw [hpq]; rfl
    _ = patch l o q := by rw [htake, hdrop, hpq]; rfl

/-- Everything is overwritten. -/
theorem patch_all {l p : List α} (h : p.length = l.length) : patch l 0 p = p := by
  rw [patch, List.take_zero, List.nil_append, Nat.zero_add, List.drop_eq_nil_of_le (by omega),
    List.append_nil]

/-- Two writes one behind the other are one write. -/
theorem patch_append {l p q : List α} {o : Nat} (h : o ≤ l.length) :
    patch (patch l o p) (o + p.length) q = patch l o (p ++ q) := by
  have hlen : (l.take o ++ p).length = o + p.length := by simp; omega
  have htake : (patch l o p).take (o + p.length) = l.take o ++ p := by
    rw [patch, ← hlen, List.take_left]
  have hdrop := drop_patch (l := l) (p := p) (n := o + p.length + q.length) (by omega) h
  rw [patch, htake, hdrop, patch, List.length_append, List.append_assoc (l.take o), Nat.add_assoc]

/-- One more element. -/
theorem slice_succ {l : List α} {o n : Nat} (h : o + n < l.length) :
    slice l o (n + 1) = slice l o n ++ [l[o + n]] := by
  have hone : slice l (o + n) 1 = [l[o + n]] := by
    rw [slice, List.drop_eq_getElem_cons h]
    rfl
  rw [← slice_append_slice, hone]

/-- One pass of a loop that copies a piece of `l` to the front of `a`. -/
theorem take_set_eq_slice {a l : List α} {o n : Nat} (ha : n < a.length) (hl : o + n < l.length)
    (hcopied : a.take n = slice l o n) : (a.set n l[o + n]).take (n + 1) = slice l o (n + 1) := by
  have hlen : n < (a.set n l[o + n]).length := by simpa using ha
  rw [List.take_succ_eq_append_getElem hlen, List.take_set_of_le (Nat.le_refl n), hcopied,
    List.getElem_set_self, slice_succ hl]

theorem slice_append_append {x y z : List α} :
    slice (x ++ y ++ z) x.length y.length = y := by
  simp [slice, List.append_assoc]

/-- Overwriting the middle of three parts. -/
theorem patch_append_append {x y z p : List α} (h : p.length = y.length) :
    patch (x ++ y ++ z) x.length p = x ++ p ++ z := by
  simp [patch, h, List.append_assoc]

end Pieces

end Base
