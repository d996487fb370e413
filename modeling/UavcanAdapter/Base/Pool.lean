/-
# `Base.Pool` — a pool behind a queue

A pool has no order of its own: whatever is in it may be taken out next.  As
long as no two of its elements have the same key, elements of one key leave it
in the order in which they came (`Pooled`), and so they do behind a queue that
serves equals in turn (`Served.fifo_pool`).
-/
import UavcanAdapter.Base.StableQueue

namespace Base

section Pools

variable {α κ : Type} [LinearOrder κ] {key : α → κ} {q pushed popped gone pool pool' : List α}
  {a : α} {k : κ}

/-- What was put in is what was taken out and what is still there, in the same
order key by key, and no two elements that are there have the same key. -/
structure Pooled (key : α → κ) (pushed gone pool : List α) : Prop where
  distinct : (pool.map key).Nodup
  perm : (gone ++ pool).Perm pushed
  fifo : ∀ k, ofKey key k gone ++ ofKey key k pool = ofKey key k pushed

theorem Pooled.nil : Pooled key [] [] [] := ⟨List.nodup_nil, List.Perm.refl _, fun _ => rfl⟩

/-- Of distinct keys there is one element each, so its place does not matter. -/
theorem ofKey_eq_of_perm (hp : pool.Perm pool') (hd : (pool.map key).Nodup) :
    ofKey key k pool = ofKey key k pool' := by
  have hperm : (ofKey key k pool).Perm (ofKey key k pool') := hp.filter _
  have hsame : ((ofKey key k pool).map key).Nodup := hd.sublist (List.filter_sublist.map key)
  have hkey : ∀ x ∈ ofKey key k pool, key x = k := fun x hx =>
    of_decide_eq_true (List.mem_filter.mp hx).2
  cases hl : ofKey key k pool with
  | nil =>
      rw [hl] at hperm
      exact (List.nil_perm.mp hperm).symm
  | cons x rest =>
      cases rest with
      | nil =>
          rw [hl] at hperm
          exact List.singleton_perm.mp hperm
      | cons y rest =>
          rw [hl] at hkey hsame
          have hxy : key x = key y :=
            (hkey x List.mem_cons_self).trans
              (hkey y (List.mem_cons_of_mem _ List.mem_cons_self)).symm
          rw [List.map_cons, List.map_cons, hxy] at hsame
          exact absurd List.mem_cons_self (List.nodup_cons.mp hsame).1

/-- An element with a new key is put in. -/
theorem Pooled.put (h : Pooled key pushed gone pool) (hp : pool'.Perm (a :: pool))
    (hnew : ∀ x ∈ pool, key x ≠ key a) : Pooled key (pushed ++ [a]) gone pool' := by
  have hdistinct : ((a :: pool).map key).Nodup := by
    rw [List.map_cons, List.nodup_cons]
    refine ⟨fun hmem => ?_, h.distinct⟩
    obtain ⟨x, hx, hxa⟩ := List.mem_map.mp hmem
    exact hnew x hx hxa
  refine ⟨(hp.map key).nodup_iff.mpr hdistinct, ?_, fun k => ?_⟩
  · have hback : (a :: pool).Perm (pool ++ [a]) := (List.perm_append_singleton a pool).symm
    have hput : (gone ++ pool').Perm (gone ++ pool ++ [a]) := by
      rw [List.append_assoc]
      exact (hp.trans hback).append_left gone
    exact hput.trans (h.perm.append_right [a])
  · rw [← ofKey_eq_of_perm hp.symm hdistinct, ofKey_append, ← h.fifo k, List.append_assoc]
    by_cases hk : key a = k
    · have hnone : ofKey key k pool = [] := ofKey_eq_nil fun x hx => hk ▸ hnew x hx
      rw [← List.singleton_append, ofKey_append, hnone, List.append_nil, List.nil_append]
    · have hnone : ofKey key k [a] = [] :=
        ofKey_eq_nil fun x hx => by rw [List.mem_singleton.mp hx]; exact hk
      rw [← List.singleton_append, ofKey_append, hnone, List.append_nil, List.nil_append]

/-- Any element is taken out. -/
theorem Pooled.take (h : Pooled key pushed gone pool) (hp : pool.Perm (a :: pool')) :
    Pooled key pushed (gone ++ [a]) pool' := by
  have hdistinct : ((a :: pool').map key).Nodup := (hp.map key).nodup_iff.mp h.distinct
  refine ⟨?_, ?_, fun k => ?_⟩
  · rw [List.map_cons] at hdistinct
    exact (List.nodup_cons.mp hdistinct).2
  · rw [List.append_assoc]
    exact (hp.symm.append_left gone).trans h.perm
  · rw [ofKey_append, List.append_assoc, ← ofKey_append, List.singleton_append,
      ← ofKey_eq_of_perm hp h.distinct, h.fifo k]

/-- What goes through a queue into a pool stays in order key by key. -/
theorem Served.fifo_pool (h : Served key pushed popped q) (hpool : Pooled key popped gone pool)
    (k : κ) : ofKey key k gone ++ (ofKey key k pool ++ ofKey key k q) = ofKey key k pushed := by
  rw [← List.append_assoc, hpool.fifo k, h.fifo k]

/-- Nothing is lost or doubled on the way. -/
theorem Served.perm_pool (h : Served key pushed popped q) (hpool : Pooled key popped gone pool) :
    (gone ++ (pool ++ q)).Perm pushed := by
  rw [← List.append_assoc]
  exact (hpool.perm.append_right q).trans h.perm

/-- Of some places one that holds something is emptied. -/
theorem perm_filterMap_update {ι : Type} [DecidableEq ι] {g : ι → Option α} {i : ι}
    (hi : g i = some a) : ∀ {is : List ι}, is.Nodup → i ∈ is →
      (is.filterMap g).Perm (a :: is.filterMap (Function.update g i none)) := by
  intro is
  induction is with
  | nil => exact fun _ hmem => absurd hmem List.not_mem_nil
  | cons j is ih =>
      intro hd hmem
      obtain ⟨hj, hd⟩ := List.nodup_cons.mp hd
      by_cases hji : j = i
      · subst hji
        have hrest : is.filterMap (Function.update g j none) = is.filterMap g := by
          refine List.filterMap_congr fun x hx => ?_
          have hxj : x ≠ j := fun h => hj (h ▸ hx)
          rw [Function.update_of_ne hxj]
        rw [List.filterMap_cons_some hi, List.filterMap_cons_none (by rw [Function.update_self]),
          hrest]
      · have hperm := ih hd ((List.mem_cons.mp hmem).resolve_left fun h => hji h.symm)
        have hsame : Function.update g i none j = g j := by rw [Function.update_of_ne hji]
        cases hg : g j with
        | none =>
            rw [List.filterMap_cons_none hg, List.filterMap_cons_none (hsame.trans hg)]
            exact hperm
        | some b =>
            rw [List.filterMap_cons_some hg, List.filterMap_cons_some (hsame.trans hg)]
            exact (hperm.cons b).trans (List.Perm.swap a b _)

end Pools

end Base
