import Mathlib.Logic.Basic

namespace AsyncResource.Suspend

/-!
# `Maybe` — a slot that its user must know to be full or empty

The source keeps a debug flag beside the uninitialised memory and asserts on it in every
access; `none` as the result of an access below is that assertion failing.  A failed
access changes nothing, since the assertion stands before the memory access.
-/

variable {T : Type}

/-- The slot: `some v` while the `loaded` flag is set. -/
abbrev Maybe (T : Type) := Option T

namespace Maybe

/-- A slot that nothing was stored in. -/
def empty : Maybe T := none

/-- `store`: "duplicate store" unless the slot is empty. -/
def store (slot : Maybe T) (value : T) : Option (Maybe T) :=
  if slot.isSome then none else some (some value)

/-- `load`: "duplicate load" unless the slot is full; the value moves out. -/
def load : Maybe T → Option (T × Maybe T)
  | some value => some (value, none)
  | none => none

/-- `clear`: "duplicate load" unless the slot is full; the value is dropped. -/
def clear : Maybe T → Option (Maybe T)
  | some _ => some none
  | none => none

@[simp] theorem store_none (value : T) : store none value = some (some value) := rfl
@[simp] theorem store_some (v value : T) : store (some v) value = none := rfl
@[simp] theorem load_some (v : T) : load (some v) = some (v, none) := rfl
@[simp] theorem load_none : load (none : Maybe T) = none := rfl
@[simp] theorem clear_some (v : T) : clear (some v) = some none := rfl
@[simp] theorem clear_none : clear (none : Maybe T) = none := rfl

end Maybe

/-- `Poll`. -/
inductive Poll (α : Type)
  | pending
  | ready (value : α)
  deriving DecidableEq, Repr

/-- How a method call panics: an assertion of `Maybe` on one of the two slots, or the
    `Invalid state` arm of a match. -/
inductive Panic
  | valueSlot
  | wakerSlot
  | invalidState
  deriving DecidableEq, Repr

/-- Where one step of a method leads: on inside its body, out with a result, or into a
    panic. -/
inductive Next (Pc R : Type)
  | goto (pc : Pc)
  | ret (result : R)
  | panic (why : Panic)
  deriving DecidableEq, Repr

end AsyncResource.Suspend
