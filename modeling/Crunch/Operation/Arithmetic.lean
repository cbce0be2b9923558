import Crunch.Value

/-!
# Crunch.Operation.Arithmetic

Sums, products, quotients and remainders.

Integers wrap around at 64 bits; their quotient is truncated toward zero and the remainder has the
sign of the dividend. A quotient or remainder by zero is an error for every kind of number.
-/

namespace Crunch
namespace Operation

/-- Arithmetic of integers. -/
def integers (op : BinaryOp) (a b : Int64) : Except Fault.Cause Int64 :=
  match op with
  | .add => .ok (a + b)
  | .sub => .ok (a - b)
  | .mul => .ok (a * b)
  | .div => if b = 0 then .error .divideByZero else .ok (a / b)
  | .mod => if b = 0 then .error .divideByZero else .ok (a % b)
  | _ => .error (.undefined (.family op "integer"))

/-- Arithmetic of numerics. -/
def numerics (op : BinaryOp) (a b : Float) : Except Fault.Cause Float :=
  match op with
  | .add => .ok (a + b)
  | .sub => .ok (a - b)
  | .mul => .ok (a * b)
  | .div => if b == 0.0 then .error .divideByZero else .ok (a / b)
  | .mod => if b == 0.0 then .error .divideByZero else .ok (Double.remainder a b)
  | _ => .error (.undefined (.family op "numeric"))

/-- Arithmetic of imaginaries, which have no remainder. -/
def imaginaries (op : BinaryOp) (a b : Imaginary) : Except Fault.Cause Imaginary :=
  match op with
  | .add => .ok (a + b)
  | .sub => .ok (a - b)
  | .mul => .ok (a * b)
  | .div => if b.isZero then .error .divideByZero else .ok (a / b)
  | _ => .error (.undefined (.family op "imaginary"))

/-- Arithmetic at the common type `t` of the operands. -/
def arithmetic (op : BinaryOp) (t : Ty) (l r : Value) : Except Fault.Cause Value :=
  match t.kind with
  | .integer => do
    let a ← l.integer?
    let b ← r.integer?
    return .integer (← integers op a b)
  | .numeric => do
    let a ← l.numeric?
    let b ← r.numeric?
    return .numeric (← numerics op a b)
  | .imaginary => do
    let a ← l.imaginary?
    let b ← r.imaginary?
    return .imaginary (← imaginaries op a b)
  | _ => .error (.undefined (.binary op l.type r.type))

end Operation
end Crunch
