import Crunch.Value.Coerce

/-!
# Crunch.Row

Tuples: a fixed number of fields, each with the type it was built with.

* `Row.ofValues`: the tuple of some values.
* `Row.field`, `Row.set`: a field by its position, counted from 1.
-/

namespace Crunch

structure Row where
  fields : List Value
  declared : List Ty

namespace Row

/-- The tuple as a value. -/
def value (r : Row) : Value := .tuple r.fields r.declared

def ofValue? : Value → Except Fault.Cause Row
  | .tuple fields declared => .ok ⟨fields, declared⟩
  | v => .error (v.mismatch "tuple")

/-- The tuple of some values, declared with their types. -/
def ofValues (vs : List Value) : Row := ⟨vs, vs.map Value.type⟩

/-- Number of fields. -/
def arity (r : Row) : Nat := r.fields.length

/-- The error for a position without a field. -/
def outside (r : Row) (p : Nat) : Fault.Cause := .indexRange (lengthOf p) r.arity

/-- The value of a field. -/
def field (r : Row) (p : Nat) : Except Fault.Cause Value :=
  if p = 0 then .error (r.outside p)
  else
    match r.fields[p - 1]? with
    | some v => .ok v
    | none => .error (r.outside p)

/-- Replaces the value of a field, converted to the type of the field. -/
def set (r : Row) (p : Nat) (v : Value) : Except Fault.Cause Row :=
  if p = 0 ∨ r.arity < p then .error (r.outside p)
  else (v.coerce (r.declared.getD (p - 1) Ty.untyped)).map fun w => ⟨r.fields.set (p - 1) w, r.declared⟩

end Row
end Crunch
