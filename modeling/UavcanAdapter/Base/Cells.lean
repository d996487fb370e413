/-
# `Base.Cells` — lists of values in a memory

A memory is a function from cells to values; `store` puts a list into it and
`load` takes one out.

`pageWrite` is the store of a memory with an address counter that counts
inside a page: behind the last cell of a page it is at the first one again.
As long as what is written ends in the page it begins in, this is a plain
`store`; otherwise the beginning of the page is overwritten, and in no case
is another page touched.
-/
import UavcanAdapter.Base.PagedFlash

namespace Base

section Store

variable {α : Type} {m : Nat → α} {a : Nat} {b : α} {bs cs : List α}

@[simp] theorem store_nil : store m a [] = m := by
  funext x
  simp [store]

theorem store_cons : store m a (b :: bs) = store (Function.update m a b) (a + 1) bs := by
  funext x
  rcases Nat.lt_trichotomy x a with hlt | rfl | hgt
  · rw [store_of_lt hlt, store_of_lt (by omega), Function.update_of_ne (by omega)]
  · rw [store_of_lt (Nat.lt_succ_self x), Function.update_self]
    exact store_add (m := m) (a := x) (i := 0) rfl
  · obtain ⟨i, rfl⟩ : ∃ i, x = a + 1 + i := ⟨x - (a + 1), by omega⟩
    have hidx : a + 1 + i = a + (i + 1) := by omega
    rcases hi : bs[i]? with - | v
    · have hlen := List.getElem?_eq_none_iff.mp hi
      rw [store_of_ge (by simpa [hidx] using hlen), store_of_ge (by omega),
        Function.update_of_ne (by omega)]
    · rw [store_add hi, hidx]
      exact store_add (by simpa using hi)

theorem store_append : store m a (bs ++ cs) = store (store m a bs) (a + bs.length) cs := by
  induction bs generalizing m a with
  | nil => simp
  | cons b bs ih =>
      rw [List.cons_append, store_cons, store_cons, ih, List.length_cons, Nat.add_assoc,
        Nat.add_comm 1]

theorem store_take_store {k : Nat} (h : k ≤ bs.length) :
    store (store m a (bs.take k)) (a + k) cs = store m a (bs.take k ++ cs) := by
  have hlen : (bs.take k).length = k := List.length_take_of_le h
  rw [store_append, hlen]

/-- What is stored can be told from the memory. -/
theorem store_injective (hlen : bs.length = cs.length) (h : store m a bs = store m a cs) :
    bs = cs := by
  apply List.ext_getElem?
  intro i
  rcases hi : bs[i]? with - | v
  · rw [List.getElem?_eq_none_iff] at hi
    exact (List.getElem?_eq_none_iff.mpr (by omega)).symm
  · have hlt : i < cs.length := by
      rw [← hlen]
      exact (List.getElem?_eq_some_iff.mp hi).1
    rw [← store_add (m := m) (a := a) hi, h,
      store_add (List.getElem?_eq_getElem hlt), List.getElem?_eq_getElem hlt]

end Store

section Load

variable {α : Type}

/-- The `n` cells from `a` on. -/
def load (m : Nat → α) (a n : Nat) : List α := (List.range n).map fun i => m (a + i)

variable {m m' : Nat → α} {a n : Nat} {bs cs : List α}

@[simp] theorem length_load : (load m a n).length = n := by simp [load]

theorem load_congr (h : ∀ x, a ≤ x → x < a + n → m x = m' x) : load m a n = load m' a n := by
  rw [load, load, List.map_inj_left]
  intro i hi
  rw [List.mem_range] at hi
  exact h (a + i) (by omega) (by omega)

/-- What is stored is loaded again. -/
theorem load_store (h : n ≤ bs.length) : load (store m a bs) a n = bs.take n := by
  apply List.ext_getElem?
  intro i
  rcases Nat.lt_or_ge i n with hlt | hge
  · have hget : bs[i]? = some bs[i] := List.getElem?_eq_getElem (by omega)
    rw [load, List.getElem?_map, List.getElem?_range hlt, List.getElem?_take_of_lt hlt, hget,
      Option.map_some, store_add hget]
  · rw [List.getElem?_eq_none (by rw [length_load]; exact hge),
      List.getElem?_eq_none (by rw [List.length_take]; omega)]

/-- What lies at the beginning of a list that is stored is replaced. -/
theorem store_store (h : cs.length ≤ bs.length) :
    store (store m a bs) a cs = store m a (cs ++ bs.drop cs.length) := by
  funext x
  rcases Nat.lt_or_ge x a with hlt | hge
  · rw [store_of_lt hlt, store_of_lt hlt, store_of_lt hlt]
  obtain ⟨i, rfl⟩ : ∃ i, x = a + i := ⟨x - a, by omega⟩
  rcases Nat.lt_or_ge i cs.length with hi | hi
  · have hget : cs[i]? = some cs[i] := List.getElem?_eq_getElem hi
    rw [store_add hget, store_add (by rw [List.getElem?_append_left hi, hget])]
  rw [store_of_ge (by omega)]
  rcases Nat.lt_or_ge i bs.length with hb | hb
  · have hget : bs[i]? = some bs[i] := List.getElem?_eq_getElem hb
    have hidx : cs.length + (i - cs.length) = i := by omega
    rw [store_add hget,
      store_add (by rw [List.getElem?_append_right hi, List.getElem?_drop, hidx, hget])]
  · rw [store_of_ge (by omega), store_of_ge (by simp; omega)]

end Load

section PageWrite

variable {α : Type} (p : Nat)

/-- The cell behind `w` in its page of `p` cells. -/
def nextInPage (w : Nat) : Nat := w / p * p + (w % p + 1) % p

/-- `bs` written one by one from cell `w` on, inside the page of `w`. -/
def pageWrite : (Nat → α) → Nat → List α → Nat → α
  | m, _, [] => m
  | m, w, b :: bs => pageWrite (Function.update m w b) (nextInPage p w) bs

variable {p} {w x : Nat}

theorem nextInPage_of_lt (h : w % p + 1 < p) : nextInPage p w = w + 1 := by
  have hdiv := Nat.div_add_mod w p
  rw [nextInPage, Nat.mod_eq_of_lt h, Nat.mul_comm]
  omega

theorem nextInPage_div (hp : 0 < p) : nextInPage p w / p = w / p := by
  rw [nextInPage, Nat.mul_comm, Nat.mul_add_div hp, Nat.div_eq_of_lt (Nat.mod_lt _ hp), Nat.add_zero]

/-- Other pages are left alone. -/
theorem pageWrite_of_ne (hp : 0 < p) : ∀ (bs : List α) (m : Nat → α) (w : Nat),
    x / p ≠ w / p → pageWrite p m w bs x = m x
  | [], _, _, _ => rfl
  | b :: bs, m, w, hx => by
      have hxw : x ≠ w := by
        rintro rfl
        exact hx rfl
      rw [pageWrite, pageWrite_of_ne hp bs _ _ (by rwa [nextInPage_div hp]),
        Function.update_of_ne hxw]

/-- What a cell holds afterwards depends on what that cell held. -/
theorem pageWrite_congr : ∀ (bs : List α) (m m' : Nat → α) (w : Nat),
    m x = m' x → pageWrite p m w bs x = pageWrite p m' w bs x
  | [], _, _, _, h => h
  | b :: bs, m, m', w, h => by
      apply pageWrite_congr bs
      by_cases hxw : x = w
      · rw [hxw, Function.update_self, Function.update_self]
      · rw [Function.update_of_ne hxw, Function.update_of_ne hxw, h]

/-- What ends in the page it begins in is simply stored. -/
theorem pageWrite_eq_store : ∀ (bs : List α) (m : Nat → α) (w : Nat),
    w % p + bs.length ≤ p → pageWrite p m w bs = store m w bs
  | [], _, _, _ => store_nil.symm
  | [b], m, w, _ => by rw [store_cons, store_nil]; rfl
  | b :: c :: bs, m, w, h => by
      simp only [List.length_cons] at h
      have hlt : w % p + 1 < p := by omega
      have hmod : (w + 1) % p = w % p + 1 := by
        rw [Nat.add_mod, Nat.mod_eq_of_lt (show 1 < p by omega), Nat.mod_eq_of_lt hlt]
      rw [pageWrite, nextInPage_of_lt hlt, store_cons]
      exact pageWrite_eq_store (c :: bs) _ (w + 1) (by rw [hmod, List.length_cons]; omega)

end PageWrite

end Base
