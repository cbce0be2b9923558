import Crunch.Operation.Arithmetic
import Crunch.Operation.Bits
import Crunch.Operation.Comparison
import Crunch.Operation.Concat
import Crunch.Operation.Logic
import Crunch.Operation.Power
import Crunch.Pattern.Cache

/-!
# Crunch.Operation

Operators applied to values.

* `BinaryOp.apply`, `UnaryOp.apply`: the result, or why there is none. Operands outside the domain
  of the operator are an error. A null operand makes the result a null of the result type, except
  for comparisons and logic, which have rules of their own for nulls.
-/

namespace Crunch
namespace Operation

/-- Whether a literal matches a pattern as a whole, and the cache of patterns afterwards. -/
def matching (subject source : Value) (cache : Pattern.Cache) :
    Except Fault.Cause Value × Pattern.Cache :=
  match subject.literal?, source.literal? with
  | .error c, _ => (.error c, cache)
  | _, .error c => (.error c, cache)
  | .ok s, .ok p =>
    match cache.fetch p with
    | (.ok test, cache) => (.ok (.boolean (test s)), cache)
    | (.error message, cache) => (.error (.badPattern message), cache)

/-- An operator that is no comparison, connective or match, on operands in its domain. -/
def combine (op : BinaryOp) (t : Ty) (l r : Value) : Except Fault.Cause Value :=
  match op with
  | .add => if t = Ty.literal ∨ t = Ty.tabchar then concat l r else arithmetic op t l r
  | .power => power l r
  | .bitAnd | .bitOr | .bitXor | .shiftLeft | .shiftRight => bits op l r
  | _ => arithmetic op t l r

end Operation

open Operation in
/-- The result of an operator, and the cache of patterns afterwards. -/
def BinaryOp.apply (op : BinaryOp) (l r : Value) (cache : Pattern.Cache) :
    Except Fault.Cause Value × Pattern.Cache :=
  match op.result? l.type r.type with
  | none => (.error (.undefined (.binary op l.type r.type)), cache)
  | some t =>
    if op.isComparison then (comparison op l r, cache)
    else if op.isLogical then (logical op l r, cache)
    else if l.isNull || r.isNull then (.ok (.null t), cache)
    else if op = .match then matching l r cache
    else (combine op t l r, cache)

/-- The result of an operator on one operand. -/
def UnaryOp.apply (op : UnaryOp) (v : Value) : Except Fault.Cause Value :=
  match op.result? v.type with
  | none => .error (.undefined (.unary op v.type))
  | some t =>
    if v.isNull then .ok (.null t)
    else
      match op, v with
      | .negate, .integer n => .ok (.integer (-n))
      | .negate, .numeric x => .ok (.numeric (-x))
      | .negate, .imaginary z => .ok (.imaginary (-z))
      | .plus, v => .ok v
      | .not, .boolean b => .ok (.boolean (!b))
      | .bitNot, .boolean b => .ok (.boolean (!b))
      | .bitNot, .integer n => .ok (.integer (~~~n))
      | _, v => .error (.undefined (.unary op v.type))

end Crunch
