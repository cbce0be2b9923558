import Crunch.Operator
import Crunch.Ty

/-!
# Crunch.Rejection

Reasons to reject a script before it runs, and their messages.

* `Surprise`: what was found in the text where something else was needed.
* `Clash`: what makes types unsuitable.
* `Rejection`: one cause and the line it points at.
-/

namespace Crunch

/-- A piece of text that cannot stand where it was found. -/
inductive Surprise where
  /-- The piece itself. -/
  | piece (text : String)
  /-- In a list, where a comma or the closing bracket has to follow an element. -/
  | inList (closing found : String)
  /-- Where a name is needed. -/
  | noName (found : String)
  /-- Where one fixed token is needed. -/
  | missing (expected place found : String)
  /-- Where the position of a field is needed. -/
  | noPosition (found : String)
  /-- After a complete statement. -/
  | afterStatement (found : String)
  /-- Where the first handler is needed. -/
  | noHandler (found : String)
deriving DecidableEq, Repr

def Surprise.text : Surprise → String
  | .piece t => t
  | .inList closing found => s!"expected ',' or '{closing}', found {found}"
  | .noName found => s!"expected a name, found {found}"
  | .missing expected place found => s!"expected '{expected}' {place}, found {found}"
  | .noPosition found => s!"expected field position after '@', found {found}"
  | .afterStatement found => s!"{found} after statement"
  | .noHandler found => s!"expected 'catch' after try block, found {found}"

/-- Types that do not fit together or do not allow what is done. -/
inductive Clash where
  | condition (found : Ty)
  | assignment (found : Ty) (name : String) (target : Ty)
  | iteration (found : Ty)
  | bound (found : Ty)
  | index (found : Ty)
  | notIndexable (target : Ty)
  | noFields (target : Ty)
  | noField (target : Ty) (position : Nat)
  | element (held found : Ty)
  | mixedOrder (name : String)
deriving DecidableEq, Repr

def Clash.text : Clash → String
  | .condition found => s!"condition must be a boolean, found {found.text}"
  | .assignment found name target => s!"cannot assign {found.text} to '{name}' of type {target.text}"
  | .iteration found => s!"cannot iterate over {found.text}"
  | .bound found => s!"range bound must be an integer, found {found.text}"
  | .index found => s!"index must be an integer, found {found.text}"
  | .notIndexable target => s!"{target.text} cannot be indexed"
  | .noFields target => s!"{target.text} has no fields"
  | .noField target position => s!"{target.text} has no field {position}"
  | .element held found => s!"collection of {held.text} cannot hold {found.text}"
  | .mixedOrder name => s!"'{name}' needs all numbers or all literals"

/-- An operator outside its domain. -/
inductive Misuse where
  | unary (op : UnaryOp) (operand : Ty)
  | binary (op : BinaryOp) (left right : Ty)
  | compound (op : BinaryOp) (target value : Ty)
deriving DecidableEq, Repr

def Misuse.text : Misuse → String
  | .unary op operand => s!"'{op.spelling}' cannot apply to {operand.text}"
  | .binary op left right => s!"'{op.spelling}' cannot combine {left.text} and {right.text}"
  | .compound op target value => s!"'{op.spelling}=' cannot combine {target.text} and {value.text}"

/-- Why a script is rejected. -/
inductive Rejection.Cause where
  | unexpected (what : Surprise)
  | unexpectedEnd
  | unclosedGroup
  | fieldPosition (n : Int64)
  | unknownVariable (name : String)
  | unknownFunction (name : String)
  | unknownMethod (name : String) (receiver : Ty)
  | unknownType (name : String)
  | argumentCount (name : String) (found : Nat)
  | argumentType (name : String) (position : Nat) (expected : String) (found : Ty)
  | clash (what : Clash)
  | misuse (what : Misuse)
  | notAssignable (name : String) (position : Nat)
  | reserved (name : String)
deriving DecidableEq, Repr

/-- A script rejected before it runs. -/
structure Rejection where
  line : Nat
  cause : Rejection.Cause
deriving DecidableEq, Repr

def Rejection.Cause.text : Rejection.Cause → String
  | .unexpected what => s!"Unexpected token: {what.text}."
  | .unexpectedEnd => "Unexpected end of input."
  | .unclosedGroup => "Expected closing parenthesis ')' but none found."
  | .fieldPosition n => s!"Invalid literal: field position {n.toInt}."
  | .unknownVariable name => s!"Unknown variable '{name}'."
  | .unknownFunction name => s!"Unknown function '{name}'."
  | .unknownMethod name receiver => s!"Type '{receiver.text}' has no method '{name}'."
  | .unknownType name => s!"Unknown type '{name}'."
  | .argumentCount name found => s!"'{name}' does not take {found} argument(s)."
  | .argumentType name position expected found =>
    s!"Argument {position} of '{name}' must be {expected}, found {found.text}."
  | .clash what => s!"Type mismatch: {what.text}."
  | .misuse what => s!"Invalid expression: {what.text}."
  | .notAssignable name position => s!"Argument {position} of '{name}' must be a variable."
  | .reserved name => s!"Identifier {name} is reserved."

/-- The message for the user. -/
def Rejection.message (r : Rejection) : String := s!"Error on line {r.line}: {r.cause.text}"

end Crunch
