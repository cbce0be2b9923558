import Crunch.Count
import Crunch.Value

/-!
# Crunch.Value.Coerce

Values converted to the type of the slot that they are stored into.

* `Value.coerce`: reals convert into each other and into imaginaries, a numeric loses its
  fraction, a null takes the type of the slot, and collections convert element by element. All else
  has to have the type of the slot already. An untyped slot takes any value as it is.
-/

namespace Crunch
namespace Value

/-- Converts a value that is no collection, for a slot whose type accepts it. -/
def convert (v : Value) (t : Ty) : Except Fault.Cause Value :=
  match v with
  | .null _ => .ok (.null t)
  | .integer n =>
    if t.isScalar .numeric then .ok (.numeric n.toFloat)
    else if t.isScalar .imaginary then .ok (.imaginary (.ofReal n.toFloat))
    else .ok v
  | .numeric x =>
    if t.isScalar .imaginary then .ok (.imaginary (.ofReal x))
    else if t.isScalar .integer then (truncate x).map .integer
    else .ok v
  | _ => .ok v

mutual

/-- The value as it is stored into a slot of type `t`. -/
def coerce : Value → Ty → Except Fault.Cause Value
  | .collection e items, t =>
    if t.isUntyped then .ok (.collection e items)
    else if !t.accepts e.arrayOf then .error (.mismatch (.storing e.arrayOf t))
    else if e.arrayOf = t then .ok (.collection e items)
    else
      match t.element? with
      | some e' =>
        match coerceAll items e' with
        | .ok items' => .ok (.collection e' items')
        | .error c => .error c
      | none => .ok (.collection e items)
  | v, t =>
    if t.isUntyped then .ok v
    else if !t.accepts v.type then .error (.mismatch (.storing v.type t))
    else convert v t

/-- All values as they are stored into slots of one type. -/
def coerceAll : List Value → Ty → Except Fault.Cause (List Value)
  | [], _ => .ok []
  | v :: vs, t =>
    match coerce v t with
    | .error c => .error c
    | .ok w =>
      match coerceAll vs t with
      | .error c => .error c
      | .ok ws => .ok (w :: ws)

end

end Value
end Crunch
