import Crunch.Ty.Domain
import Crunch.Value

/-!
# Crunch.Operation.Concat

The sum of texts: a literal joins the text of any value, a byte array the bytes of another one or
of a literal.
-/

namespace Crunch
namespace Operation

/-- The concatenation of two values, one of which is a literal or byte array. -/
def concat (l r : Value) : Except Fault.Cause Value :=
  match BinaryOp.add.result? l.type r.type with
  | none => .error (.undefined (.binary .add l.type r.type))
  | some t =>
    if l.isNull || r.isNull then .ok (.null t)
    else
      match l, r with
      | .tabchar a, .tabchar b => .ok (.tabchar (a ++ b))
      | .tabchar a, .literal b => .ok (.tabchar (a ++ Utf8.encode b))
      | _, _ => .ok (.literal (l.text ++ r.text))

end Operation
end Crunch
