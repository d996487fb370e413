/-
# `Base.Call` — calls that may not return

A C function on the target either returns a value or never gives control
back: a failed `assert` stops the system, an access leaves its array, or a
loop is never left.  `Call α` is the value of such a function.  Code that
goes wrong in one of these ways is then a value of the model like any
other, and "the call returns" is a proposition about it.
-/
import UavcanAdapter.Base.Bytes

namespace Base

/-- Why a call does not return. -/
inductive Halt
  /-- a failed `assert` -/
  | assertion
  /-- an index outside its array -/
  | bounds
  /-- a loop that is never left -/
  | hang
deriving DecidableEq, Repr

/-- The outcome of a call: a value, or the reason why there is none. -/
abbrev Call (α : Type) := Except Halt α

namespace Call

/-- `assert(p)`. -/
def assert (p : Prop) [Decidable p] : Call Unit :=
  if p then .ok () else .error .assertion

theorem assert_eq_ok {p : Prop} [Decidable p] {u : Unit} : assert p = .ok u ↔ p := by
  by_cases h : p <;> simp [assert, h]

theorem assert_of_true {p : Prop} [Decidable p] (h : p) : assert p = .ok () := by
  simp [assert, h]

theorem assert_of_false {p : Prop} [Decidable p] (h : ¬p) : assert p = .error .assertion := by
  simp [assert, h]

/-- A sequence of two calls returns iff both do. -/
theorem bind_eq_ok {α β : Type} {x : Call α} {f : α → Call β} {b : β} :
    (x >>= f) = .ok b ↔ ∃ a, x = .ok a ∧ f a = .ok b := by
  cases x with
  | error e => simp [bind, Except.bind]
  | ok a => simp [bind, Except.bind]

theorem ok_bind {α β : Type} {a : α} {f : α → Call β} : ((.ok a : Call α) >>= f) = f a := rfl

theorem pure_eq_ok {α : Type} {a b : α} : (pure a : Call α) = .ok b ↔ a = b := by
  simp [pure, Except.pure]

/-! ## Arrays -/

section Arrays

variable {α : Type} {n : Nat}

/-- `a[i] = f(a[i])`. -/
def modify (a : Vector α n) (i : Nat) (f : α → α) : Call (Vector α n) :=
  if h : i < n then .ok (a.set i (f a[i])) else .error .bounds

/-- `memcmp(a, b, len) == 0`. -/
def equalPrefix [DecidableEq α] (a b : Vector α n) (len : Nat) : Call Bool :=
  if len ≤ n then .ok (decide (a.toList.take len = b.toList.take len)) else .error .bounds

/-- `memcpy(&buffer[i], p, …)`. -/
def storeAt (buffer : List α) (i : Nat) (p : List α) : Call (List α) :=
  if i + p.length ≤ buffer.length then .ok (patch buffer i p) else .error .bounds

theorem modify_of_lt {a : Vector α n} {i : Nat} {f : α → α} (h : i < n) :
    modify a i f = .ok (a.set i (f a[i])) := dif_pos h

theorem equalPrefix_of_le [DecidableEq α] {a b : Vector α n} {len : Nat} (h : len ≤ n) :
    equalPrefix a b len = .ok (decide (a.toList.take len = b.toList.take len)) := if_pos h

theorem storeAt_of_le {buffer p : List α} {i : Nat} (h : i + p.length ≤ buffer.length) :
    storeAt buffer i p = .ok (patch buffer i p) := if_pos h

end Arrays

/-! ## Returning -/

/-- The call returns. -/
def Returns {α : Type} (x : Call α) : Prop := ∃ a, x = .ok a

theorem not_returns_error {α : Type} (e : Halt) : ¬Returns (.error e : Call α) := by
  rintro ⟨a, h⟩
  cases h

theorem Returns.bind {α β : Type} {x : Call α} {f : α → Call β} (hx : Returns x)
    (hf : ∀ a, x = .ok a → Returns (f a)) : Returns (x >>= f) := by
  obtain ⟨a, ha⟩ := hx
  obtain ⟨b, hb⟩ := hf a ha
  exact ⟨b, bind_eq_ok.mpr ⟨a, ha, hb⟩⟩

/-- The call returns a value with property `p`. -/
def ReturnsWith {α : Type} (x : Call α) (p : α → Prop) : Prop := ∃ a, x = .ok a ∧ p a

instance decReturnsWith {α : Type} (x : Call α) (p : α → Prop) [DecidablePred p] :
    Decidable (ReturnsWith x p) :=
  match x with
  | .ok a => decidable_of_iff (p a) ⟨fun h => ⟨a, rfl, h⟩, fun ⟨_, h, hp⟩ => by cases h; exact hp⟩
  | .error _ => isFalse fun ⟨_, h, _⟩ => by cases h

end Call

end Base
