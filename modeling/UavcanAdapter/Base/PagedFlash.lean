/-
# `Base.PagedFlash` — memory that is erased by pages

Cells are written one by one, but they can only be made `blank` again a
page at a time; `page` says which page a cell belongs to.  `lazyWrite`
stores a chunk the lazy way: it walks over the place where the chunk will
lie and erases a page whenever it meets a cell that is not blank.

Chunks that are stored this way one behind another can destroy each other:
a page is erased when the first cell of it that was in use is reached, and
by then earlier chunks may lie in front of that cell.  `Harmless` says that
nothing but blanks lay there, and `holds_lazyWriteAll_iff` says that this is
exactly when all the chunks are there in the end.  `Apart` says the same of
two regions of which one is erased.
-/
import Mathlib.Tactic

namespace Base

section PagedFlash

variable {α π : Type} (page : Nat → π) (blank : α)

/-! ## Erasing and storing -/

/-- Memory `m` after the page of cell `a` was erased. -/
def erasePage [DecidableEq π] (m : Nat → α) (a : Nat) : Nat → α :=
  fun x => if page x = page a then blank else m x

/-- One of the `n` cells from `a` on lies in the page of `x` and is in use. -/
def DirtyIn (m : Nat → α) (a n x : Nat) : Prop :=
  ∃ z, a ≤ z ∧ z < a + n ∧ page z = page x ∧ m z ≠ blank

open Classical in
/-- Memory `m` after the pages in which one of the `n` cells from `a` on was
in use were erased. -/
noncomputable def eraseDirty (m : Nat → α) (a n : Nat) : Nat → α :=
  fun x => if DirtyIn page blank m a n x then blank else m x

/-- Memory `m` with `bs` stored from `a` on. -/
def store (m : Nat → α) (a : Nat) (bs : List α) : Nat → α :=
  fun x => if a ≤ x then bs.getD (x - a) (m x) else m x

/-- `m` holds `bs` from `a` on. -/
def HoldsAt (m : Nat → α) (a : Nat) (bs : List α) : Prop :=
  ∀ i v, bs[i]? = some v → m (a + i) = v

/-- Erase what is in use where `bs` will lie, then store it. -/
noncomputable def lazyWrite (m : Nat → α) (a : Nat) (bs : List α) : Nat → α :=
  store (eraseDirty page blank m a bs.length) a bs

/-- Chunks stored one behind another, from `a` on. -/
noncomputable def lazyWriteAll : (Nat → α) → Nat → List (List α) → Nat → α
  | m, _, [] => m
  | m, a, c :: cs => lazyWriteAll (lazyWrite page blank m a c) (a + c.length) cs

variable {page blank} {m : Nat → α} {a n x : Nat}

theorem eraseDirty_of_dirty (h : DirtyIn page blank m a n x) :
    eraseDirty page blank m a n x = blank := if_pos h

theorem eraseDirty_of_clean (h : ¬DirtyIn page blank m a n x) :
    eraseDirty page blank m a n x = m x := if_neg h

theorem eraseDirty_congr {m' : Nat → α} {a' n' : Nat} (hm : m x = m' x)
    (hd : DirtyIn page blank m a n x ↔ DirtyIn page blank m' a' n' x) :
    eraseDirty page blank m a n x = eraseDirty page blank m' a' n' x := by
  by_cases h : DirtyIn page blank m a n x
  · rw [eraseDirty_of_dirty h, eraseDirty_of_dirty (hd.mp h)]
  · rw [eraseDirty_of_clean h, eraseDirty_of_clean (fun h' => h (hd.mpr h')), hm]

theorem eraseDirty_ne_blank_iff :
    eraseDirty page blank m a n x ≠ blank ↔ m x ≠ blank ∧ ¬DirtyIn page blank m a n x := by
  by_cases h : DirtyIn page blank m a n x
  · simp [eraseDirty_of_dirty h, h]
  · simp [eraseDirty_of_clean h, h]

theorem eraseDirty_eq_iff :
    eraseDirty page blank m a n x = m x ↔ (DirtyIn page blank m a n x → m x = blank) := by
  by_cases h : DirtyIn page blank m a n x
  · rw [eraseDirty_of_dirty h]
    exact ⟨fun hm _ => hm.symm, fun hm => (hm h).symm⟩
  · exact ⟨fun _ hd => absurd hd h, fun _ => eraseDirty_of_clean h⟩

/-- What was walked over is blank afterwards. -/
theorem eraseDirty_self (hx : a ≤ x) (hxn : x < a + n) :
    eraseDirty page blank m a n x = blank := by
  by_contra hne
  obtain ⟨hm, hclean⟩ := eraseDirty_ne_blank_iff.mp hne
  exact hclean ⟨x, hx, hxn, rfl, hm⟩

@[simp] theorem eraseDirty_zero : eraseDirty page blank m a 0 = m := by
  funext x
  apply eraseDirty_of_clean
  rintro ⟨z, hz, hz', -⟩
  omega

/-- The walk goes past a cell that is blank. -/
theorem eraseDirty_succ_of_eq (h : m a = blank) :
    eraseDirty page blank m a (n + 1) = eraseDirty page blank m (a + 1) n := by
  funext x
  refine eraseDirty_congr rfl ?_
  constructor
  · rintro ⟨z, hz, hz', hp, hm⟩
    have hza : z ≠ a := by rintro rfl; exact hm h
    exact ⟨z, by omega, by omega, hp, hm⟩
  · rintro ⟨z, hz, hz', hp, hm⟩
    exact ⟨z, by omega, by omega, hp, hm⟩

/-- At a cell in use the walk erases its page and goes on. -/
theorem eraseDirty_succ_of_ne [DecidableEq π] (h : m a ≠ blank) :
    eraseDirty page blank m a (n + 1) =
      eraseDirty page blank (erasePage page blank m a) (a + 1) n := by
  funext x
  by_cases hx : page x = page a
  · have hblank : erasePage page blank m a x = blank := if_pos hx
    rw [eraseDirty_of_dirty ⟨a, le_rfl, by omega, hx.symm, h⟩]
    by_cases hd : DirtyIn page blank (erasePage page blank m a) (a + 1) n x
    · rw [eraseDirty_of_dirty hd]
    · rw [eraseDirty_of_clean hd, hblank]
  · have hsame : ∀ z, page z = page x → erasePage page blank m a z = m z := by
      intro z hz
      exact if_neg (by rw [hz]; exact hx)
    refine eraseDirty_congr (hsame x rfl).symm ?_
    constructor
    · rintro ⟨z, hz, hz', hp, hm⟩
      have hza : z ≠ a := by rintro rfl; exact hx hp.symm
      exact ⟨z, by omega, by omega, hp, by rwa [hsame z hp]⟩
    · rintro ⟨z, hz, hz', hp, hm⟩
      exact ⟨z, by omega, by omega, hp, by rwa [hsame z hp] at hm⟩

/-- Where the `n` cells from `a` on and the `k` cells from `b` on share a
page, one of the two regions is blank there. -/
def Apart (page : Nat → π) (blank : α) (m : Nat → α) (a n b k : Nat) : Prop :=
  ∀ i < n, ∀ j < k, page (a + i) = page (b + j) → m (a + i) = blank ∨ m (b + j) = blank

theorem apart_comm {b k : Nat} : Apart page blank m a n b k ↔ Apart page blank m b k a n := by
  constructor
  · intro h j hj i hi hp
    exact (h i hi j hj hp.symm).symm
  · intro h i hi j hj hp
    exact (h j hj i hi hp.symm).symm

/-- Erasing one region keeps another one iff the two are apart. -/
theorem eraseDirty_keeps_iff {b k : Nat} :
    (∀ j < k, eraseDirty page blank m a n (b + j) = m (b + j)) ↔ Apart page blank m a n b k := by
  constructor
  · intro h i hi j hj hp
    by_cases hm : m (a + i) = blank
    · exact Or.inl hm
    · exact Or.inr (eraseDirty_eq_iff.mp (h j hj) ⟨a + i, by omega, by omega, hp, hm⟩)
  · intro h j hj
    refine eraseDirty_eq_iff.mpr ?_
    rintro ⟨z, hz, hz', hp, hm⟩
    obtain ⟨i, rfl⟩ : ∃ i, z = a + i := ⟨z - a, by omega⟩
    exact (h i (by omega) j hj hp).resolve_left hm

theorem store_of_lt {bs : List α} (h : x < a) : store m a bs x = m x := if_neg (by omega)

theorem store_of_ge {bs : List α} (h : a + bs.length ≤ x) : store m a bs x = m x := by
  rw [store, if_pos (by omega), List.getD_eq_getElem?_getD,
    List.getElem?_eq_none (by omega)]
  rfl

theorem store_add {bs : List α} {i : Nat} {v : α} (h : bs[i]? = some v) :
    store m a bs (a + i) = v := by
  rw [store, if_pos (by omega), Nat.add_sub_cancel_left, List.getD_eq_getElem?_getD, h]
  rfl

/-! ## Chunk after chunk -/

/-- Whenever a chunk reaches the first cell in use of a page, nothing but
blanks was stored in that page before. -/
def Harmless (page : Nat → π) (blank : α) (m : Nat → α) (a : Nat) (cs : List (List α)) : Prop :=
  ∀ pre c post, cs = pre ++ c :: post →
    ∀ i < c.length, m (a + pre.flatten.length + i) ≠ blank →
      ¬DirtyIn page blank m a pre.flatten.length (a + pre.flatten.length + i) →
      ∀ j v, pre.flatten[j]? = some v → page (a + j) = page (a + pre.flatten.length + i) →
        v = blank

theorem harmless_nil : Harmless page blank m a [] := by
  intro pre c post h
  simp at h

/-- The last chunk adds a condition of its own. -/
theorem harmless_append_singleton {cs : List (List α)} {c : List α} :
    Harmless page blank m a (cs ++ [c]) ↔ Harmless page blank m a cs ∧
      ∀ i < c.length, m (a + cs.flatten.length + i) ≠ blank →
        ¬DirtyIn page blank m a cs.flatten.length (a + cs.flatten.length + i) →
        ∀ j v, cs.flatten[j]? = some v → page (a + j) = page (a + cs.flatten.length + i) →
          v = blank := by
  constructor
  · intro h
    refine ⟨fun pre d post hcs => h pre d (post ++ [c]) (by simp [hcs]), ?_⟩
    exact h cs c [] rfl
  · rintro ⟨hcs, hc⟩ pre d post heq
    rcases List.eq_nil_or_concat post with rfl | ⟨post', e, rfl⟩
    · obtain ⟨rfl, hd⟩ := List.append_inj' heq rfl
      obtain rfl : c = d := by simpa using hd
      exact hc
    · have heq' : cs ++ [c] = (pre ++ d :: post') ++ [e] := by simpa using heq
      obtain ⟨hpre, -⟩ := List.append_inj' heq' rfl
      exact hcs pre d post' hpre

theorem lazyWriteAll_append_singleton (cs : List (List α)) (c : List α) :
    ∀ (m : Nat → α) (a : Nat), lazyWriteAll page blank m a (cs ++ [c]) =
      lazyWrite page blank (lazyWriteAll page blank m a cs) (a + cs.flatten.length) c := by
  induction cs with
  | nil => intro m a; simp [lazyWriteAll]
  | cons d cs ih =>
      intro m a
      simp only [List.cons_append, lazyWriteAll, ih, List.flatten_cons, List.length_append,
        Nat.add_assoc]

/-- Past the chunks stored so far, memory is as it was but for the pages
that had to be erased. -/
theorem lazyWriteAll_ahead (cs : List (List α)) :
    ∀ x, a + cs.flatten.length ≤ x →
      lazyWriteAll page blank m a cs x = eraseDirty page blank m a cs.flatten.length x := by
  induction cs using List.reverseRecOn with
  | nil => intro x _; simp [lazyWriteAll]
  | append_singleton cs c ih =>
      intro x hx
      have hlen : (cs ++ [c]).flatten.length = cs.flatten.length + c.length := by simp
      rw [hlen] at hx ⊢
      rw [lazyWriteAll_append_singleton, lazyWrite, store_of_ge (by omega)]
      have hdirty : DirtyIn page blank (lazyWriteAll page blank m a cs) (a + cs.flatten.length)
            c.length x ∨ DirtyIn page blank m a cs.flatten.length x ↔
          DirtyIn page blank m a (cs.flatten.length + c.length) x := by
        constructor
        · rintro (⟨z, hz, hz', hp, hm⟩ | ⟨z, hz, hz', hp, hm⟩)
          · rw [ih z hz] at hm
            exact ⟨z, by omega, by omega, hp, (eraseDirty_ne_blank_iff.mp hm).1⟩
          · exact ⟨z, by omega, by omega, hp, hm⟩
        · rintro ⟨z, hz, hz', hp, hm⟩
          by_cases hold : DirtyIn page blank m a cs.flatten.length x
          · exact Or.inr hold
          have hge : a + cs.flatten.length ≤ z := by
            by_contra hlt
            exact hold ⟨z, hz, by omega, hp, hm⟩
          refine Or.inl ⟨z, hge, by omega, hp, ?_⟩
          rw [ih z hge]
          refine eraseDirty_ne_blank_iff.mpr ⟨hm, ?_⟩
          rwa [DirtyIn, hp]
      by_cases hnew : DirtyIn page blank (lazyWriteAll page blank m a cs) (a + cs.flatten.length)
          c.length x
      · rw [eraseDirty_of_dirty hnew, eraseDirty_of_dirty (hdirty.mp (Or.inl hnew))]
      rw [eraseDirty_of_clean hnew, ih x (by omega)]
      by_cases hold : DirtyIn page blank m a cs.flatten.length x
      · rw [eraseDirty_of_dirty hold, eraseDirty_of_dirty (hdirty.mp (Or.inr hold))]
      · rw [eraseDirty_of_clean hold, eraseDirty_of_clean]
        exact fun h => (hdirty.mpr h).elim hnew hold

/-- A cell among the chunks holds what was stored there, or was erased. -/
theorem lazyWriteAll_behind (cs : List (List α)) :
    ∀ i v, cs.flatten[i]? = some v →
      lazyWriteAll page blank m a cs (a + i) = v ∨
        lazyWriteAll page blank m a cs (a + i) = blank := by
  induction cs using List.reverseRecOn with
  | nil => intro i v h; simp at h
  | append_singleton cs c ih =>
      intro i v h
      rw [lazyWriteAll_append_singleton, lazyWrite]
      rw [List.flatten_append, List.flatten_singleton] at h
      rcases Nat.lt_or_ge i cs.flatten.length with hi | hi
      · rw [List.getElem?_append_left hi] at h
        rw [store_of_lt (by omega)]
        by_cases hd : DirtyIn page blank (lazyWriteAll page blank m a cs)
            (a + cs.flatten.length) c.length (a + i)
        · exact Or.inr (eraseDirty_of_dirty hd)
        · rw [eraseDirty_of_clean hd]
          exact ih i v h
      · rw [List.getElem?_append_right hi] at h
        have hidx : a + i = a + cs.flatten.length + (i - cs.flatten.length) := by omega
        rw [hidx]
        exact Or.inl (store_add h)

/-- The next chunk leaves the earlier ones alone iff every page it erases
holds blanks only as far as they go. -/
theorem holdsAt_lazyWrite_iff {cs : List (List α)} {c : List α} :
    HoldsAt (lazyWriteAll page blank m a (cs ++ [c])) a (cs ++ [c]).flatten ↔
      HoldsAt (lazyWriteAll page blank m a cs) a cs.flatten ∧
      ∀ i < c.length, m (a + cs.flatten.length + i) ≠ blank →
        ¬DirtyIn page blank m a cs.flatten.length (a + cs.flatten.length + i) →
        ∀ j v, cs.flatten[j]? = some v → page (a + j) = page (a + cs.flatten.length + i) →
          v = blank := by
  have hflat : (cs ++ [c]).flatten = cs.flatten ++ c := by simp
  rw [hflat, lazyWriteAll_append_singleton, lazyWrite]
  set w := lazyWriteAll page blank m a cs with hw
  -- a cell of the new chunk triggers an erasure iff it is in use and its page was not erased
  have htrigger : ∀ i, w (a + cs.flatten.length + i) ≠ blank ↔
      m (a + cs.flatten.length + i) ≠ blank ∧
        ¬DirtyIn page blank m a cs.flatten.length (a + cs.flatten.length + i) := by
    intro i
    rw [hw, lazyWriteAll_ahead cs _ (by omega)]
    exact eraseDirty_ne_blank_iff
  constructor
  · intro h
    have hold : ∀ j v, cs.flatten[j]? = some v →
        eraseDirty page blank w (a + cs.flatten.length) c.length (a + j) = v := by
      intro j v hj
      have hlt : j < cs.flatten.length := (List.getElem?_eq_some_iff.mp hj).1
      rw [← h j v (by rw [List.getElem?_append_left hlt, hj]), store_of_lt (by omega)]
    constructor
    · intro j v hj
      by_cases hd : DirtyIn page blank w (a + cs.flatten.length) c.length (a + j)
      · have hv : v = blank := by rw [← hold j v hj, eraseDirty_of_dirty hd]
        have hbehind : w (a + j) = v ∨ w (a + j) = blank := lazyWriteAll_behind cs j v hj
        rcases hbehind with h | h
        · exact h
        · rw [hv]
          exact h
      · rw [← hold j v hj, eraseDirty_of_clean hd]
    · intro i hi hm hclean j v hj hp
      have hd : DirtyIn page blank w (a + cs.flatten.length) c.length (a + j) :=
        ⟨_, by omega, by omega, hp.symm, (htrigger i).mpr ⟨hm, hclean⟩⟩
      rw [← hold j v hj, eraseDirty_of_dirty hd]
  · rintro ⟨hold, hc⟩ i v hv
    rcases Nat.lt_or_ge i cs.flatten.length with hi | hi
    · rw [List.getElem?_append_left hi] at hv
      rw [store_of_lt (by omega)]
      by_cases hd : DirtyIn page blank w (a + cs.flatten.length) c.length (a + i)
      · rw [eraseDirty_of_dirty hd]
        obtain ⟨z, hz, hz', hp, hm⟩ := hd
        obtain ⟨k, rfl⟩ : ∃ k, z = a + cs.flatten.length + k :=
          ⟨z - (a + cs.flatten.length), by omega⟩
        obtain ⟨hmz, hclean⟩ := (htrigger k).mp hm
        exact (hc k (by omega) hmz hclean i v hv hp.symm).symm
      · rw [eraseDirty_of_clean hd]
        exact hold i v hv
    · rw [List.getElem?_append_right hi] at hv
      have hidx : a + i = a + cs.flatten.length + (i - cs.flatten.length) := by omega
      rw [hidx]
      exact store_add hv

/-- All the chunks are there in the end iff no erasure did harm. -/
theorem holdsAt_lazyWriteAll_iff (cs : List (List α)) :
    HoldsAt (lazyWriteAll page blank m a cs) a cs.flatten ↔ Harmless page blank m a cs := by
  induction cs using List.reverseRecOn with
  | nil =>
      refine ⟨fun _ => harmless_nil, fun _ i v h => ?_⟩
      simp at h
  | append_singleton cs c ih =>
      rw [holdsAt_lazyWrite_iff, harmless_append_singleton, ih]

end PagedFlash

end Base
