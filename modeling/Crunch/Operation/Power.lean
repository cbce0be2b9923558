import Crunch.Ty.Domain
import Crunch.Value

/-!
# Crunch.Operation.Power

Powers.

* `integerPower`: a natural power of an integer, by repeated squaring, modulo `2 ^ 64`.
* `power`: powers of numbers at their common type. A negative power of an integer is numeric; zero
  has no negative power.
-/

namespace Crunch
namespace Operation

/-- `acc * b ^ e`. -/
def squarings (acc b : Int64) (e : Nat) : Int64 :=
  if e = 0 then acc
  else squarings (if e % 2 = 1 then acc * b else acc) (b * b) (e / 2)
termination_by e
decreasing_by omega

/-- `b ^ e`. -/
def integerPower (b : Int64) (e : Nat) : Int64 := squarings 1 b e

/-- Powers of imaginaries. Zero raised to a power with a positive real component is zero. -/
def imaginaryPower (b e : Imaginary) : Except Fault.Cause Imaginary :=
  if !b.isZero then .ok (b.power e)
  else if e.isZero then .ok (.ofReal 1.0)
  else if e.re > 0.0 then .ok (.ofReal 0.0)
  else .error .divideByZero

/-- `b ** e`. -/
def power (b e : Value) : Except Fault.Cause Value :=
  match Ty.promote? b.type e.type with
  | none => .error (.undefined (.binary .power b.type e.type))
  | some t =>
    if b.isNull || e.isNull then .ok (.null t)
    else
      match t.kind with
      | .integer => do
        let m ← b.integer?
        let n ← e.integer?
        if 0 ≤ n.toInt then return .integer (integerPower m n.toInt.toNat)
        else if m = 0 then .error .divideByZero
        else return .numeric (m.toFloat.pow n.toFloat)
      | .numeric => do
        let x ← b.numeric?
        let y ← e.numeric?
        if x == 0.0 && y < 0.0 then .error .divideByZero else return .numeric (x.pow y)
      | _ => do
        let z ← b.imaginary?
        let w ← e.imaginary?
        return .imaginary (← imaginaryPower z w)

end Operation
end Crunch
