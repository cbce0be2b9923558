/-!
# Crunch.Operator

Operators of expressions.

* `BinaryOp`, `UnaryOp`: the operators with their spellings.
* `BinaryOp.level`, `UnaryOp.level`: their precedence, loosest first.
-/

namespace Crunch

inductive BinaryOp where
  | add | sub | mul | div | mod | power
  | equal | notEqual | less | lessEqual | greater | greaterEqual
  | and | or | xor
  | bitAnd | bitOr | bitXor | shiftLeft | shiftRight
  | match
deriving DecidableEq, Repr

inductive UnaryOp where
  | negate | plus | not | bitNot
deriving DecidableEq, Repr

namespace BinaryOp

def spelling : BinaryOp → String
  | .add => "+"
  | .sub => "-"
  | .mul => "*"
  | .div => "/"
  | .mod => "%"
  | .power => "**"
  | .equal => "=="
  | .notEqual => "!="
  | .less => "<"
  | .lessEqual => "<="
  | .greater => ">"
  | .greaterEqual => ">="
  | .and => "and"
  | .or => "or"
  | .xor => "xor"
  | .bitAnd => "&"
  | .bitOr => "|"
  | .bitXor => "^"
  | .shiftLeft => "<<"
  | .shiftRight => ">>"
  | .match => "~="

/-- All operators. -/
def all : List BinaryOp :=
  [.add, .sub, .mul, .div, .mod, .power, .equal, .notEqual, .less, .lessEqual, .greater,
   .greaterEqual, .and, .or, .xor, .bitAnd, .bitOr, .bitXor, .shiftLeft, .shiftRight, .match]

/-- The operator with a spelling. -/
def ofSpelling? (s : String) : Option BinaryOp := all.find? (·.spelling == s)

/-- Operators that compare their operands. -/
def isComparison : BinaryOp → Bool
  | .equal | .notEqual | .less | .lessEqual | .greater | .greaterEqual => true
  | _ => false

/-- Operators of three-valued logic. -/
def isLogical : BinaryOp → Bool
  | .and | .or | .xor => true
  | _ => false

/-- Operators that may stand before the `=` of a compound assignment. -/
def isCompound : BinaryOp → Bool
  | .add | .sub | .mul | .div | .mod => true
  | _ => false

/-- Level of precedence, 0 for the loosest. The levels 3 and 11 belong to the operators before an
operand, and the power binds tighter than all. -/
def level : BinaryOp → Nat
  | .or => 0
  | .xor => 1
  | .and => 2
  | .equal | .notEqual | .less | .lessEqual | .greater | .greaterEqual | .match => 4
  | .bitOr => 5
  | .bitXor => 6
  | .bitAnd => 7
  | .shiftLeft | .shiftRight => 8
  | .add | .sub => 9
  | .mul | .div | .mod => 10
  | .power => 12

end BinaryOp

namespace UnaryOp

def spelling : UnaryOp → String
  | .negate => "-"
  | .plus => "+"
  | .not => "not"
  | .bitNot => "~"

/-- All operators. -/
def all : List UnaryOp := [.negate, .plus, .not, .bitNot]

/-- The operator with a spelling. -/
def ofSpelling? (s : String) : Option UnaryOp := all.find? (·.spelling == s)

/-- Level of precedence: negation of truth values binds looser than comparisons. -/
def level : UnaryOp → Nat
  | .not => 3
  | _ => 11

end UnaryOp
end Crunch
