import Crunch.Operator
import Crunch.Ty

/-!
# Crunch.Ty.Domain

Domains and result types of the operators. The checker rejects expressions outside them before a
script runs, and evaluation takes the types of its null results from them.

* `Ty.promote?`: the common type of two numbers.
* `Ty.unify?`: the common type of two elements of a collection.
* `Ty.equatable`, `Ty.orderable`: the domains of the comparisons.
* `BinaryOp.result?`, `UnaryOp.result?`: the result type of each operator on its domain.
-/

namespace Crunch

/-- Rank in the chain integer, numeric, imaginary; zero for what is no number. -/
def Kind.rank : Kind → Nat
  | .integer => 1
  | .numeric => 2
  | .imaginary => 3
  | _ => 0

namespace Ty

/-- The common type of two numbers: the one of the greater rank. An untyped null adopts the other
side. -/
def promote? (a b : Ty) : Option Ty :=
  match a.isUntyped, b.isUntyped with
  | true, true => some untyped
  | true, false => if b.isNumber then some b else none
  | false, true => if a.isNumber then some a else none
  | false, false =>
    if a.isNumber && b.isNumber then
      some (scalar (if a.kind.rank ≥ b.kind.rank then a.kind else b.kind))
    else none

/-- Untyped, or a scalar of this kind. -/
def isOrUntyped (k : Kind) (t : Ty) : Bool := t.isUntyped || t.isScalar k

/-- Whether `==` and `!=` apply. -/
def equatable (a b : Ty) : Bool :=
  a.isUntyped || b.isUntyped || (a.isNumber && b.isNumber) || (a.accepts b && b.accepts a)

/-- Types with an order, the untyped one among them. -/
def isOrdered (t : Ty) : Bool :=
  t.isUntyped || t.isScalar .integer || t.isScalar .numeric || t.isScalar .literal
    || t.isScalar .tabchar || t.isScalar .boolean

/-- Whether `<`, `<=`, `>` and `>=` apply. -/
def orderable (a b : Ty) : Bool :=
  a.isOrdered && b.isOrdered
    && (a.isUntyped || b.isUntyped || a.kind == b.kind || (a.kind.rank > 0 && b.kind.rank > 0))

/-- The common type of two elements of one collection. Numbers promote, and the untyped kind
adopts the other side at the same level. -/
def unify? (a b : Ty) : Option Ty :=
  if a.isUntyped then some b
  else if b.isUntyped ∨ a = b then some a
  else if a.isNumber && b.isNumber then promote? a b
  else if a.level = b.level ∧ (a.kind = .noType ∨ b.kind = .noType) then
    some (if a.kind = .noType then b else a)
  else none

end Ty

open Ty in
/-- The result type of a binary operator, if the operands are in its domain. -/
def BinaryOp.result? (op : BinaryOp) (a b : Ty) : Option Ty :=
  match op with
  | .add =>
    if a.isScalar .tabchar && (b.isOrUntyped .tabchar || b.isScalar .literal) then some tabchar
    else if a.isScalar .literal || b.isScalar .literal then some literal
    else promote? a b
  | .sub | .mul | .div | .power => promote? a b
  | .mod => (promote? a b).filter fun t => t.kind ≠ .imaginary
  | .equal | .notEqual => if equatable a b then some boolean else none
  | .less | .lessEqual | .greater | .greaterEqual => if orderable a b then some boolean else none
  | .and | .or | .xor =>
    if a.isOrUntyped .boolean && b.isOrUntyped .boolean then some boolean else none
  | .bitAnd | .bitOr | .bitXor =>
    if a.isUntyped && b.isUntyped then some untyped
    else if a.isOrUntyped .integer && b.isOrUntyped .integer then some integer
    else if a.isOrUntyped .boolean && b.isOrUntyped .boolean then some boolean
    else none
  | .shiftLeft | .shiftRight =>
    if a.isOrUntyped .integer && b.isOrUntyped .integer then some integer else none
  | .match => if a.isOrUntyped .literal && b.isOrUntyped .literal then some boolean else none

open Ty in
/-- The result type of a unary operator, if the operand is in its domain. -/
def UnaryOp.result? (op : UnaryOp) (t : Ty) : Option Ty :=
  match op with
  | .negate | .plus => if t.isUntyped || t.isNumber then some t else none
  | .not => if t.isOrUntyped .boolean then some boolean else none
  | .bitNot =>
    if t.isUntyped || t.isScalar .integer || t.isScalar .boolean then some t else none

end Crunch
