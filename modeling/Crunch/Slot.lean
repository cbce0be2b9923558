import Crunch.Scope
import Crunch.Value.Coerce

/-!
# Crunch.Slot

Variables: a declared type and a value.

* `Slot.store`: a new value, converted to the declared type.
* `adopt`: the type of a slot that has none yet, once a typed value has come up.
-/

namespace Crunch

structure Slot where
  type : Ty
  value : Value

/-- The type of a slot after a value of type `t` has been stored into it. A slot without a type, or
with a collection type without a kind, takes the type of the first value that has one. -/
def adopt (slot t : Ty) : Ty :=
  if slot.kind = .noType ∧ t.kind ≠ .noType ∧ (slot.isUntyped ∨ slot.level = t.level) then t else slot

namespace Slot

/-- The slot of a new variable. -/
def ofValue (v : Value) : Slot := ⟨v.type, v⟩

/-- The slot with another value of a type that it allows. -/
def withValue (s : Slot) (v : Value) : Slot := ⟨adopt s.type v.type, v⟩

/-- Stores a value. -/
def store (s : Slot) (v : Value) : Except Fault.Cause Slot := (v.coerce s.type).map s.withValue

end Slot
end Crunch
