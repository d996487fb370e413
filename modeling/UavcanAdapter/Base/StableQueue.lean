/-
# `Base.StableQueue` — priority queues that serve equals in turn

The queue is kept in the order of a key, and an element goes in behind all
those whose key is not larger than its own.  So the element in front always
has the smallest key, and elements with the same key are served in the order
in which they came.

`Served` says both about a queue, all that was put into it and all that was
taken out of it; putting an element in and taking the first one out keep it.
-/
import Mathlib.Tactic

namespace Base

section Queues

variable {α κ : Type} [LinearOrder κ] {key : α → κ} {q pushed popped : List α} {a : α} {k : κ}

/-- The queue with one element more. -/
def enqueue (key : α → κ) (a : α) (q : List α) : List α :=
  q.orderedInsert (fun x y => key x < key y) a

/-- Smaller keys come first. -/
def InOrder (key : α → κ) (q : List α) : Prop := q.Pairwise fun x y => key x ≤ key y

/-- The elements with key `k`. -/
def ofKey (key : α → κ) (k : κ) (q : List α) : List α := q.filter fun x => decide (key x = k)

theorem ofKey_append (q r : List α) : ofKey key k (q ++ r) = ofKey key k q ++ ofKey key k r :=
  List.filter_append q r

theorem ofKey_eq_nil (h : ∀ x ∈ q, key x ≠ k) : ofKey key k q = [] := by
  rw [ofKey, List.filter_eq_nil_iff]
  intro x hx
  simpa using h x hx

theorem perm_enqueue : (enqueue key a q).Perm (a :: q) := List.perm_orderedInsert _ a q

theorem mem_enqueue {x : α} : x ∈ enqueue key a q ↔ x = a ∨ x ∈ q := List.mem_orderedInsert _

theorem InOrder.enqueue (h : InOrder key q) : InOrder key (enqueue key a q) := by
  induction q with
  | nil => exact List.pairwise_singleton _ a
  | cons b q ih =>
      obtain ⟨hb, hq⟩ := List.pairwise_cons.mp h
      rw [Base.enqueue, List.orderedInsert_cons]
      split
      · rename_i hlt
        refine List.pairwise_cons.mpr ⟨?_, h⟩
        intro x hx
        rcases List.mem_cons.mp hx with rfl | hx
        · exact hlt.le
        · exact hlt.le.trans (hb x hx)
      · rename_i hge
        refine List.pairwise_cons.mpr ⟨?_, ih hq⟩
        intro x hx
        rcases mem_enqueue.mp hx with rfl | hx
        · exact not_lt.mp hge
        · exact hb x hx

/-- A new element comes last among those with its key. -/
theorem ofKey_enqueue (h : InOrder key q) :
    ofKey key k (enqueue key a q) = ofKey key k q ++ ofKey key k [a] := by
  induction q with
  | nil => rfl
  | cons b q ih =>
      obtain ⟨hb, hq⟩ := List.pairwise_cons.mp h
      rw [enqueue, List.orderedInsert_cons]
      split
      · rename_i hlt
        -- whatever is behind the new element has a larger key
        by_cases hk : key a = k
        · have hnone : ofKey key k (b :: q) = [] := by
            refine ofKey_eq_nil fun x hx => ?_
            rcases List.mem_cons.mp hx with rfl | hx
            · exact hk ▸ hlt.ne'
            · exact hk ▸ (hlt.trans_le (hb x hx)).ne'
          rw [← List.singleton_append, ofKey_append, hnone, List.append_nil, List.nil_append]
        · have hnone : ofKey key k [a] = [] :=
            ofKey_eq_nil fun x hx => by rw [List.mem_singleton.mp hx]; exact hk
          rw [← List.singleton_append, ofKey_append, hnone, List.append_nil, List.nil_append]
      · rw [← List.singleton_append, ofKey_append, ← List.singleton_append (l := q),
          ofKey_append, List.append_assoc, ← ih hq]
        rfl

/-- What was put in is what was taken out and what is still there, in the same
order key by key. -/
structure Served (key : α → κ) (pushed popped q : List α) : Prop where
  inOrder : InOrder key q
  perm : (popped ++ q).Perm pushed
  fifo : ∀ k, ofKey key k popped ++ ofKey key k q = ofKey key k pushed

theorem Served.nil : Served key [] [] [] := ⟨List.Pairwise.nil, List.Perm.refl _, fun _ => rfl⟩

theorem Served.push (h : Served key pushed popped q) :
    Served key (pushed ++ [a]) popped (enqueue key a q) where
  inOrder := h.inOrder.enqueue
  perm := by
    have hput : (popped ++ enqueue key a q).Perm (popped ++ q ++ [a]) := by
      rw [List.append_assoc]
      exact (perm_enqueue.trans (List.perm_append_singleton a q).symm).append_left popped
    exact hput.trans (h.perm.append_right [a])
  fifo k := by rw [ofKey_enqueue h.inOrder, ofKey_append, ← h.fifo k, List.append_assoc]

theorem Served.pop (h : Served key pushed popped (a :: q)) :
    Served key pushed (popped ++ [a]) q where
  inOrder := (List.pairwise_cons.mp h.inOrder).2
  perm := by simpa using h.perm
  fifo k := by
    rw [ofKey_append, List.append_assoc, ← ofKey_append, List.singleton_append]
    exact h.fifo k

end Queues

end Base
