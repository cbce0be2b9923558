import Crunch.Value

/-!
# Crunch.Operation.Logic

Logic with three truth values, the third being a null for "unknown".

* `truth`: the truth value of an operand.
* `and3`, `or3`, `xor3`: unknown only when the known operand does not decide.
-/

namespace Crunch
namespace Operation

/-- The truth value of an operand of `op`. -/
def truth (op : BinaryOp) : Value → Except Fault.Cause (Option Bool)
  | .boolean b => .ok (some b)
  | .null t =>
    if t.isUntyped || t.isScalar .boolean then .ok none
    else .error (.undefined (.notLogical op t))
  | v => .error (.undefined (.notLogical op v.type))

/-- A truth value as a value. -/
def ofTruth : Option Bool → Value
  | some b => .boolean b
  | none => .null Ty.boolean

def and3 : Option Bool → Option Bool → Option Bool
  | some false, _ => some false
  | _, some false => some false
  | some true, some true => some true
  | _, _ => none

def or3 : Option Bool → Option Bool → Option Bool
  | some true, _ => some true
  | _, some true => some true
  | some false, some false => some false
  | _, _ => none

def xor3 : Option Bool → Option Bool → Option Bool
  | some a, some b => some (a != b)
  | _, _ => none

/-- The connective of an operator. -/
def connective : BinaryOp → Option Bool → Option Bool → Option Bool
  | .and => and3
  | .or => or3
  | _ => xor3

/-- The left operand that decides `op` alone, and with it the result. -/
def decided (op : BinaryOp) (a : Option Bool) : Option Bool :=
  match op, a with
  | .and, some false => some false
  | .or, some true => some true
  | _, _ => none

/-- `and`, `or` and `xor` of two values. -/
def logical (op : BinaryOp) (l r : Value) : Except Fault.Cause Value := do
  let a ← truth op l
  let b ← truth op r
  return ofTruth (connective op a b)

end Operation
end Crunch
