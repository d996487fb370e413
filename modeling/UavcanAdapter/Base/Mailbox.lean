/-
# `Base.Mailbox` — the last value put into a place

A place that holds at most one value, seen through the list of all accesses
to it: `content` is what the accesses leave behind, and it is the value put
last with nothing but looks behind it (`content_eq_some_iff`).
-/
import Mathlib.Tactic

namespace Base

/-- What an access does to the place. -/
inductive Access (α : Type)
  | put (value : α)
  | drop
  | look
deriving DecidableEq, Repr

namespace Access

variable {α : Type}

/-- The content after one access. -/
def apply (content : Option α) : Access α → Option α
  | .put value => some value
  | .drop => none
  | .look => content

/-- The content after all accesses, of a place that was empty. -/
def content (accesses : List (Access α)) : Option α := accesses.foldl apply none

theorem content_append (accesses : List (Access α)) (a : Access α) :
    content (accesses ++ [a]) = apply (content accesses) a := by
  simp [content]

/-- The content is the value put last, if only looks came behind it. -/
theorem content_eq_some_iff {value : α} (accesses : List (Access α)) :
    content accesses = some value ↔
      ∃ pre post, accesses = pre ++ .put value :: post ∧ ∀ a ∈ post, a = .look := by
  induction accesses using List.reverseRecOn with
  | nil => simp [content]
  | append_singleton accesses a ih =>
      rw [content_append]
      constructor
      · intro h
        cases a with
        | put value' =>
            cases h
            exact ⟨accesses, [], rfl, by simp⟩
        | drop => cases h
        | look =>
            obtain ⟨pre, post, rfl, hpost⟩ := ih.mp h
            refine ⟨pre, post ++ [.look], by simp, fun b hb => ?_⟩
            rcases List.mem_append.mp hb with hb | hb
            · exact hpost b hb
            · exact List.mem_singleton.mp hb
      · rintro ⟨pre, post, heq, hpost⟩
        rcases List.eq_nil_or_concat post with rfl | ⟨post', b, rfl⟩
        · obtain ⟨-, hlast⟩ := List.append_inj' heq rfl
          obtain rfl : a = .put value := by simpa using hlast
          rfl
        · have heq' : accesses ++ [a] = (pre ++ .put value :: post') ++ [b] := by simpa using heq
          obtain ⟨hpre, hlast⟩ := List.append_inj' heq' rfl
          obtain rfl : a = b := by simpa using hlast
          obtain rfl : a = .look := hpost a (by simp)
          exact ih.mpr ⟨pre, post', hpre, fun c hc => hpost c (by simp [hc])⟩

end Access

end Base
