import FleetScaler.Failure

/-!
# Slots

A slot holds a capability that is bound and unbound while the program runs. Taking out a value
that has been replaced meanwhile does nothing.
-/

namespace FleetScaler

/-- A named place for a value that may be missing. -/
structure Slot (α : Type) where
  name : String
  value : Option α := none
  deriving DecidableEq, Repr

namespace Slot

variable {α : Type}

/-- Puts a value into the slot, or none. -/
def bind (s : Slot α) (value : Option α) : Slot α := { s with value }

/-- Empties the slot if it holds the given value. -/
def unbind [DecidableEq α] (s : Slot α) (value : Option α) : Slot α :=
  if s.value = value then { s with value := none } else s

/-- Empties the slot. -/
def clear (s : Slot α) : Slot α := { s with value := none }

/-- The slot holds a value. -/
def isBound (s : Slot α) : Bool := s.value.isSome

/-- The value of the slot, which has to hold one. -/
def get (s : Slot α) : Except Failure α :=
  match s.value with
  | some a => .ok a
  | none => .error (.notBound s.name)

end Slot

end FleetScaler
