import Crunch.Value

/-!
# Crunch.Operation.Bits

Operators on the bits of integers and on booleans as single bits. Shifts take the amount modulo 64
and the one to the right keeps the sign.
-/

namespace Crunch
namespace Operation

/-- `&`, `|`, `^`, `<<` and `>>`. -/
def bits (op : BinaryOp) (l r : Value) : Except Fault.Cause Value :=
  let undefined := Except.error (.undefined (.binary op l.type r.type))
  match l, r with
  | .integer a, .integer b =>
    match op with
    | .bitAnd => .ok (.integer (a &&& b))
    | .bitOr => .ok (.integer (a ||| b))
    | .bitXor => .ok (.integer (a ^^^ b))
    | .shiftLeft => .ok (.integer (a <<< (b &&& 63)))
    | .shiftRight => .ok (.integer (a >>> (b &&& 63)))
    | _ => undefined
  | .boolean a, .boolean b =>
    match op with
    | .bitAnd => .ok (.boolean (a && b))
    | .bitOr => .ok (.boolean (a || b))
    | .bitXor => .ok (.boolean (a != b))
    | _ => undefined
  | _, _ => undefined

end Operation
end Crunch
