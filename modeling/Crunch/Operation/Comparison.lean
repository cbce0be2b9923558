import Crunch.Value

/-!
# Crunch.Operation.Comparison

Equality and order of values.

* `equal`: equality of contents. Numbers of different kinds compare by value, all nulls are equal,
  and the types that tuples and collections declare are not looked at.
* `order`: the order of numbers, literals, byte arrays and booleans.
* `comparison`: the six operators. A null compares false with everything; two nulls are equal,
  unknown when one of them is boolean.
-/

namespace Crunch
namespace Operation

/-- Real numbers compare as doubles, where NaN equals itself and is above all others. -/
def reals (l r : Value) : Option Ordering :=
  match l, r with
  | .integer a, .integer b => some (compare a.toInt b.toInt)
  | .integer a, .numeric y => some (Double.totalOrder a.toFloat y)
  | .numeric x, .integer b => some (Double.totalOrder x b.toFloat)
  | .numeric x, .numeric y => some (Double.totalOrder x y)
  | _, _ => none

/-- Numbers as imaginaries. -/
def complex? : Value → Option Imaginary
  | .integer n => some (.ofReal n.toFloat)
  | .numeric x => some (.ofReal x)
  | .imaginary z => some z
  | _ => none

/-- Equality of values that are no tuples or collections. -/
def equalScalars (l r : Value) : Bool :=
  match reals l r with
  | some o => o == .eq
  | none =>
    match complex? l, complex? r with
    | some z, some w => z.same w
    | _, _ => l.same r

mutual

/-- Equality of contents. -/
def equal : Value → Value → Bool
  | .null _, .null _ => true
  | .tuple fs _, .tuple fs' _ => equalAll fs fs'
  | .collection _ vs, .collection _ vs' => equalAll vs vs'
  | l, r => equalScalars l r

/-- Equality of contents, one by one. -/
def equalAll : List Value → List Value → Bool
  | [], [] => true
  | v :: vs, v' :: vs' => equal v v' && equalAll vs vs'
  | _, _ => false

end

/-- The order of two values of one ordered kind. -/
def order (l r : Value) : Except Fault.Cause Ordering :=
  match reals l r with
  | some o => .ok o
  | none =>
    match l, r with
    | .literal a, .literal b => .ok (a.toList.compareLex compare b.toList)
    | .tabchar a, .tabchar b => .ok (a.compareLex compare b)
    | .boolean a, .boolean b => .ok (compare a.toNat b.toNat)
    | _, _ => .error (.undefined (.unordered l.type r.type))

/-- A comparison of two nulls. -/
def nulls (op : BinaryOp) (l r : Value) : Value :=
  if (op = .equal ∨ op = .notEqual) ∧ (l.type.isScalar .boolean || r.type.isScalar .boolean) then
    .null Ty.boolean
  else .boolean (op == .equal)

/-- The six comparisons. -/
def comparison (op : BinaryOp) (l r : Value) : Except Fault.Cause Value :=
  if l.isNull && r.isNull then .ok (nulls op l r)
  else if l.isNull || r.isNull then .ok (.boolean false)
  else
    match op with
    | .equal => .ok (.boolean (equal l r))
    | .notEqual => .ok (.boolean (!equal l r))
    | .less => (order l r).map fun o => .boolean (o == .lt)
    | .lessEqual => (order l r).map fun o => .boolean (o != .gt)
    | .greater => (order l r).map fun o => .boolean (o == .gt)
    | .greaterEqual => (order l r).map fun o => .boolean (o != .lt)
    | _ => .error (.undefined (.notAComparison op))

end Operation
end Crunch
