import Crunch.Decimal.Numeral
import Crunch.Operator
import Crunch.Ty

/-!
# Crunch.Fault

Errors of a running script.

* `Fault`: a cause and the line it points at.
* `Fault.message`: the text for the user, which handlers find in the variable `error`.
* `Fault.name`: the exception name that handlers are matched by. An exception raised by the script
  has the name it was raised with.
* `Fault.code`: the number of the kind of error; the numbers are fixed.
-/

namespace Crunch

/-- A number outside the range that an operation takes. -/
inductive OutOfRange where
  | notAnInteger (x : Float)
  | negative (what : String) (n : Int64)
  | tooLarge (what : String) (n : Nat)
  | notAByte (n : Int64)
  | characterCode (n : Int64)
  | clampBounds (low high : String)
  | decimals (n : Int64)
  | logarithmOfZero
  | inverseFunction (name : String) (x : Float)
  | randomBound (n : Int64)
  | hashSize (n : Int64)
  | malformedBase64
  | notReal (z what : String)
deriving DecidableEq, Repr

def OutOfRange.text : OutOfRange → String
  | .notAnInteger x => s!"{Decimal.positional x} does not fit in an integer"
  | .negative what n => s!"{what} must not be negative, found {n.toInt}"
  | .tooLarge what n => s!"{what} {n} is too large"
  | .notAByte n => s!"{n.toInt} is not a byte"
  | .characterCode n => s!"character code {n.toInt}"
  | .clampBounds low high => s!"clamp bounds {low} > {high}"
  | .decimals n => s!"{n.toInt} decimals"
  | .logarithmOfZero => "logarithm of zero"
  | .inverseFunction name x => s!"{name}({Decimal.positional x})"
  | .randomBound n => s!"random({n.toInt})"
  | .hashSize n => s!"hash size {n.toInt}"
  | .malformedBase64 => "malformed base64"
  | .notReal z what => s!"{z} has no {what} value"

/-- A value of an unsuitable type. -/
inductive Mismatch where
  | expected (what : String) (found : Ty)
  | storing (found target : Ty)
  | element (held found : Ty)
  | conversion (found : Ty) (what : String)
  | notAVariable
  | argument (position : Nat) (name needed : String) (found : Ty)
deriving DecidableEq, Repr

def Mismatch.text : Mismatch → String
  | .expected what found => s!"expected {what}, found {found.text}"
  | .storing found target => s!"cannot store {found.text} into {target.text}"
  | .element held found => s!"collection of {held.text} cannot hold {found.text}"
  | .conversion found what => s!"cannot convert {found.text} to {what}"
  | .notAVariable => "in-out argument is not a variable"
  | .argument position name needed found =>
    s!"argument {position} of '{name}' must be {needed}, found {found.text}"

/-- An operator outside its domain. -/
inductive Undefined where
  | unary (op : UnaryOp) (operand : Ty)
  | binary (op : BinaryOp) (left right : Ty)
  | family (op : BinaryOp) (operands : String)
  | unordered (left right : Ty)
  | notLogical (op : BinaryOp) (found : Ty)
  | notAComparison (op : BinaryOp)
deriving DecidableEq, Repr

def Undefined.text : Undefined → String
  | .unary op operand => s!"cannot apply '{op.spelling}' to {operand.text}"
  | .binary op left right => s!"cannot apply '{op.spelling}' to {left.text} and {right.text}"
  | .family op operands => s!"cannot apply '{op.spelling}' to {operands} operands"
  | .unordered left right => s!"cannot order {left.text} and {right.text}"
  | .notLogical op found => s!"'{op.spelling}' expects boolean operands, found {found.text}"
  | .notAComparison op => s!"'{op.spelling}' is not a comparison"

/-- Why a script fails. -/
inductive Fault.Cause where
  | divideByZero
  | outOfRange (what : OutOfRange)
  | indexRange (index : Int64) (size : Nat)
  | mismatch (what : Mismatch)
  | undefined (what : Undefined)
  /-- A method that the receiver does not have; a number of arguments is given for objects. -/
  | noMethod (receiver : Ty) (method : String) (arguments : Option Nat)
  | notANumber (text : String)
  | nullValue
  | unknownVariable (name : String)
  | unknownFunction (name : String)
  | unknownType (name : String)
  | argumentCount (name : String)
  | assertionFailed
  /-- A text that is no pattern, with what the engine says about it. -/
  | badPattern (message : String)
  /-- A failure that a native type reports. -/
  | native (type message : String)
  | raised (name : String)
  | interrupted
  /-- Input that cannot be read. -/
  | input (message : String)
deriving DecidableEq, Repr

/-- An error of a running script. -/
structure Fault where
  line : Nat
  cause : Fault.Cause
deriving DecidableEq, Repr

def Fault.Cause.text : Fault.Cause → String
  | .divideByZero => "Division by zero."
  | .outOfRange what => s!"Value out of range: {what.text}."
  | .indexRange index size => s!"Index {index.toInt} is out of range for size {size}."
  | .mismatch what => s!"Type mismatch: {what.text}."
  | .undefined what => s!"Invalid expression: {what.text}."
  | .noMethod receiver method none => s!"Not implemented: {receiver.text} has no method '{method}'."
  | .noMethod receiver method (some n) =>
    s!"Not implemented: {receiver.text} has no method '{method}' taking {n} argument(s)."
  | .notANumber text => s!"Cannot convert '{text}' to a number."
  | .nullValue => "Null value."
  | .unknownVariable name => s!"Unknown variable '{name}'."
  | .unknownFunction name => s!"Unknown function '{name}'."
  | .unknownType name => s!"Unknown type '{name}'."
  | .argumentCount name => s!"Argument count mismatch calling '{name}'."
  | .assertionFailed => "Assertion failed."
  | .badPattern message => s!"Invalid regular expression: {message}"
  | .native type message => s!"{type}: {message}."
  | .raised name => s!"Unhandled exception '{name}'."
  | .interrupted => "Interrupted."
  | .input message => s!"I/O error: {message}."

namespace Fault

/-- The message for the user. -/
def message (f : Fault) : String := s!"Error on line {f.line}: {f.cause.text}"

/-- The name that handlers are matched by. -/
def name (f : Fault) : String :=
  match f.cause with
  | .divideByZero => "divide_by_zero"
  | .outOfRange _ => "out_of_range"
  | .indexRange _ _ => "index_range"
  | .mismatch _ => "type_mismatch"
  | .undefined _ => "invalid_expression"
  | .noMethod _ _ _ => "not_implemented"
  | .notANumber _ => "string_to_number"
  | .nullValue => "null_pointer"
  | .unknownVariable _ | .unknownFunction _ | .unknownType _ => "unknown_symbol"
  | .argumentCount _ => "argument_count"
  | .assertionFailed => "assertion_failed"
  | .badPattern _ => "regex"
  | .native _ _ => "plugin"
  | .raised name => name
  | .interrupted => "interrupted"
  | .input _ => "io"

/-- The fixed number of the kind of error. -/
def code (f : Fault) : Nat :=
  match f.cause with
  | .divideByZero => 1
  | .outOfRange _ => 2
  | .indexRange _ _ => 3
  | .mismatch _ => 4
  | .undefined _ => 5
  | .noMethod _ _ _ => 6
  | .notANumber _ => 7
  | .nullValue => 8
  | .raised _ => 9
  | .unknownVariable _ | .unknownFunction _ | .unknownType _ => 10
  | .argumentCount _ => 11
  | .assertionFailed => 12
  | .badPattern _ => 13
  | .native _ _ => 14
  | .interrupted => 15
  | .input _ => 16

/-- Whether a handler may take the error. Interruption always ends the script. -/
def isCatchable (f : Fault) : Bool := f.cause ≠ .interrupted

end Fault

end Crunch
