import Crunch.Proofs.Grammar

/-!
# Crunch.Proofs.Printing

The written form of scripts.

* `precedence`: the table of operators, from the loosest row to the tightest one.
* `Expr.tokens`, `Program.tokens`: the tokens of a tree. In the printed form operands stand in
  parentheses where the table requires it and statements are separated by line ends. The bare form has
  only the tokens that belong to the nodes, in the order of the script.
* `Program.isWellFormed`: the trees that scripts can have.
* `Program.unplaced`: a tree without its lines.
-/

namespace Crunch

/-! ## The table -/

/-- The operators between and before operands, from the loosest row to the tightest one. -/
def precedence : List (List BinaryOp × List UnaryOp) :=
  [([.or], []),
   ([.xor], []),
   ([.and], []),
   ([], [.not]),
   ([.equal, .notEqual, .less, .lessEqual, .greater, .greaterEqual, .match], []),
   ([.bitOr], []),
   ([.bitXor], []),
   ([.bitAnd], []),
   ([.shiftLeft, .shiftRight], []),
   ([.add, .sub], []),
   ([.mul, .div, .mod], []),
   ([], [.negate, .plus, .bitNot]),
   ([.power], [])]

/-- The row of operands without an operator. -/
def operandRow : Nat := precedence.length

namespace BinaryOp

def row (op : BinaryOp) : Nat := precedence.findIdx (·.1.contains op)

/-- The loosest row of a left operand without parentheses: all operators but the power group to the
left. -/
def leftRow (op : BinaryOp) : Nat := if op = .power then op.row + 1 else op.row

/-- The loosest row of a right operand without parentheses. An operator in front of an exponent
cannot be read in two ways, so it needs none. -/
def rightRow (op : BinaryOp) : Nat := if op = .power then op.row - 1 else op.row + 1

def token : BinaryOp → Token
  | .add => .mark .plus
  | .sub => .mark .minus
  | .mul => .mark .star
  | .div => .mark .slash
  | .mod => .mark .percent
  | .power => .mark .starStar
  | .equal => .mark .equalEqual
  | .notEqual => .mark .bangEqual
  | .less => .mark .less
  | .lessEqual => .mark .lessEqual
  | .greater => .mark .greater
  | .greaterEqual => .mark .greaterEqual
  | .and => .keyword .and
  | .or => .keyword .or
  | .xor => .keyword .xor
  | .bitAnd => .mark .ampersand
  | .bitOr => .mark .pipe
  | .bitXor => .mark .caret
  | .shiftLeft => .mark .shiftLeft
  | .shiftRight => .mark .shiftRight
  | .match => .mark .tildeEqual

/-- The operator with the `=` of a compound assignment. Other operators have no such form. -/
def assignment : BinaryOp → Token
  | .add => .mark .plusAssign
  | .sub => .mark .minusAssign
  | .mul => .mark .mulAssign
  | .div => .mark .divAssign
  | .mod => .mark .modAssign
  | _ => .mark .equals

theorem row_eq_level (op : BinaryOp) : op.row = op.level := by
  cases op <;> rfl

theorem leftRow_le (op : BinaryOp) : op.leftRow ≤ operandRow := by
  cases op <;> decide

theorem rightRow_le (op : BinaryOp) : op.rightRow ≤ operandRow := by
  cases op <;> decide

theorem operator?_token (op : BinaryOp) : Parse.operator? op.token = some op := by
  cases op <;> rfl

theorem assignment?_assignment {op : BinaryOp} (h : op.isCompound = true) :
    Parse.assignment? op.assignment = some (some op) := by
  cases op <;> first | rfl | cases h

end BinaryOp

namespace UnaryOp

def row (op : UnaryOp) : Nat := precedence.findIdx (·.2.contains op)

def token : UnaryOp → Token
  | .negate => .mark .minus
  | .plus => .mark .plus
  | .not => .keyword .not
  | .bitNot => .mark .tilde

end UnaryOp

/-! ## Tokens of trees -/

def Constant.token : Constant → Token
  | .null => .keyword .null
  | .boolean b => .bool b
  | .integer n => .integer n
  | .numeric x => .numeric x
  | .imaginary x => .imaginary x
  | .literal s => .str s

theorem Constant.constant?_token (c : Constant) : Parse.constant? c.token = some c := by
  cases c <;> rfl

def Member.tokens : Member → List Token
  | .named s => [.identifier s]
  | .setField p => [.identifier "set", .mark .at, .integer (Int64.ofNat p)]

/-- The two ways to write a tree down. -/
inductive Form where
  | printed | bare
deriving DecidableEq

/-- Tokens in parentheses if these are required and written. -/
def Form.group (form : Form) (required : Bool) (ts : List Token) : List Token :=
  if form = .printed ∧ required = true then .mark .lParen :: ts ++ [.mark .rParen] else ts

/-- What stands between two statements. -/
def Form.separator : Form → List Token
  | .printed => [.newLine]
  | .bare => []

mutual

/-- The tokens of an expression where the loosest row without parentheses is `row`. -/
def Expr.tokens (form : Form) (row : Nat) : Expr → List Token
  | .constant _ c => [c.token]
  | .var _ s => [.identifier s]
  | .unary _ op e => form.group (op.row < row) (op.token :: e.tokens form op.row)
  | .binary _ op a b =>
    form.group (op.row < row) (a.tokens form op.leftRow ++ op.token :: b.tokens form op.rightRow)
  | .call _ s es => .identifier s :: .mark .lParen :: (Expr.tokensAll form es ++ [.mark .rParen])
  | .member _ a m es =>
    a.tokens form operandRow ++ .mark .dot :: (m.tokens ++ .mark .lParen :: (Expr.tokensAll form es ++ [.mark .rParen]))
  | .index _ a i => a.tokens form operandRow ++ .mark .lBracket :: (i.tokens form 0 ++ [.mark .rBracket])
  | .field _ a p => a.tokens form operandRow ++ [.mark .at, .integer (Int64.ofNat p)]
  | .collection _ es => .mark .lBracket :: (Expr.tokensAll form es ++ [.mark .rBracket])

/-- Expressions with commas between them. -/
def Expr.tokensAll (form : Form) : List Expr → List Token
  | [] => []
  | [e] => e.tokens form 0
  | e :: e' :: es => e.tokens form 0 ++ .mark .comma :: Expr.tokensAll form (e' :: es)

end

def Source.tokens (form : Form) : Source → List Token
  | .elements e => e.tokens form 0
  | .range a b false => a.tokens form 0 ++ .mark .dotDot :: b.tokens form 0
  | .range a b true => a.tokens form 0 ++ .mark .dotDotEq :: b.tokens form 0

/-- A block of statements. -/
def blockOf (ts : List Token) : List Token := .keyword .do :: .mark .lBrace :: (ts ++ [.mark .rBrace])

mutual

def Statement.tokens (form : Form) : Statement → List Token
  | .expression _ e => e.tokens form 0
  | .declare _ s e => .keyword .let :: .identifier s :: .mark .equals :: e.tokens form 0
  | .assign _ s e => .identifier s :: .mark .equals :: e.tokens form 0
  | .compound _ s op e => .identifier s :: op.assignment :: e.tokens form 0
  | .choice _ bs otherwise =>
    Statement.tokensBranches form [.keyword .if] bs ++ Statement.tokensOptional form otherwise
  | .loop _ c body => .keyword .while :: (c.tokens form 0 ++ blockOf (Statement.tokensAll form body))
  | .each _ s src body =>
    .keyword .for :: .identifier s :: .keyword .in :: (src.tokens form ++ blockOf (Statement.tokensAll form body))
  | .raise _ s => [.keyword .raise, .identifier s]
  | .attempt _ body hs =>
    .keyword .try :: (blockOf (Statement.tokensAll form body) ++ Statement.tokensHandlers form hs)
  | .load _ s => [.keyword .import, .identifier s]

/-- Statements with separators between them. -/
def Statement.tokensAll (form : Form) : List Statement → List Token
  | [] => []
  | [s] => s.tokens form
  | s :: s' :: ss => s.tokens form ++ (form.separator ++ Statement.tokensAll form (s' :: ss))

/-- The branches of an `if`; the first one starts with `lead`. -/
def Statement.tokensBranches (form : Form) (lead : List Token) : List (Expr × List Statement) → List Token
  | [] => []
  | (c, body) :: bs =>
    lead ++ (c.tokens form 0 ++ (blockOf (Statement.tokensAll form body) ++
      Statement.tokensBranches form [.keyword .else, .keyword .if] bs))

def Statement.tokensOptional (form : Form) : Option (List Statement) → List Token
  | none => []
  | some body => .keyword .else :: blockOf (Statement.tokensAll form body)

def Statement.tokensHandlers (form : Form) : List (Handler Statement) → List Token
  | [] => []
  | ⟨s, _, body⟩ :: hs =>
    .keyword .catch :: .identifier s :: (blockOf (Statement.tokensAll form body) ++ Statement.tokensHandlers form hs)

end

/-- The tokens of a script. -/
def Program.tokens (form : Form) (p : Program) : List Token := Statement.tokensAll form p

/-! ## Trees of scripts -/

/-- Positions of fields count from 1 and are written as integers. -/
def isPosition (p : Nat) : Bool := 1 ≤ p && p < Nat.pow 2 63

theorem toNat_ofNat_position {p : Nat} (h : isPosition p = true) :
    0 < (Int64.ofNat p).toInt ∧ (Int64.ofNat p).toInt.toNat = p := by
  simp only [isPosition, Bool.and_eq_true, decide_eq_true_eq] at h
  rw [Int64.toInt_ofNat_of_lt h.2]
  omega

def Member.isWellFormed : Member → Bool
  | .named _ => true
  | .setField p => isPosition p

mutual

def Expr.isWellFormed : Expr → Bool
  | .constant _ _ | .var _ _ => true
  | .unary _ _ e => e.isWellFormed
  | .binary _ _ a b | .index _ a b => a.isWellFormed && b.isWellFormed
  | .call _ _ es | .collection _ es => Expr.areWellFormed es
  | .member _ a m es => a.isWellFormed && m.isWellFormed && Expr.areWellFormed es
  | .field _ a p => a.isWellFormed && isPosition p

def Expr.areWellFormed : List Expr → Bool
  | [] => true
  | e :: es => e.isWellFormed && Expr.areWellFormed es

end

def Source.isWellFormed : Source → Bool
  | .elements e => e.isWellFormed
  | .range a b _ => a.isWellFormed && b.isWellFormed

mutual

/-- Names that are bound are not reserved, there is a first branch and a first handler, and the operators
of compound assignments have such a form. -/
def Statement.isWellFormed : Statement → Bool
  | .expression _ e => e.isWellFormed
  | .declare _ s e | .assign _ s e => !isReserved s && e.isWellFormed
  | .compound _ s op e => !isReserved s && op.isCompound && e.isWellFormed
  | .choice _ bs otherwise =>
    !bs.isEmpty && Statement.branchesWellFormed bs && Statement.optionalWellFormed otherwise
  | .loop _ c body => c.isWellFormed && Statement.areWellFormed body
  | .each _ s src body => !isReserved s && src.isWellFormed && Statement.areWellFormed body
  | .attempt _ body hs => !hs.isEmpty && Statement.areWellFormed body && Statement.handlersWellFormed hs
  | .raise _ _ | .load _ _ => true

def Statement.areWellFormed : List Statement → Bool
  | [] => true
  | s :: ss => s.isWellFormed && Statement.areWellFormed ss

def Statement.branchesWellFormed : List (Expr × List Statement) → Bool
  | [] => true
  | (c, body) :: bs => c.isWellFormed && Statement.areWellFormed body && Statement.branchesWellFormed bs

def Statement.optionalWellFormed : Option (List Statement) → Bool
  | none => true
  | some body => Statement.areWellFormed body

def Statement.handlersWellFormed : List (Handler Statement) → Bool
  | [] => true
  | ⟨_, _, body⟩ :: hs => Statement.areWellFormed body && Statement.handlersWellFormed hs

end

/-- A script can have this tree. -/
def Program.isWellFormed (p : Program) : Bool := Statement.areWellFormed p

/-! ## Trees without lines -/

mutual

/-- The expression with all lines 0. -/
def Expr.unplaced : Expr → Expr
  | .constant _ c => .constant 0 c
  | .var _ s => .var 0 s
  | .unary _ op e => .unary 0 op e.unplaced
  | .binary _ op a b => .binary 0 op a.unplaced b.unplaced
  | .call _ s es => .call 0 s (Expr.unplacedAll es)
  | .member _ a m es => .member 0 a.unplaced m (Expr.unplacedAll es)
  | .index _ a i => .index 0 a.unplaced i.unplaced
  | .field _ a p => .field 0 a.unplaced p
  | .collection _ es => .collection 0 (Expr.unplacedAll es)

def Expr.unplacedAll : List Expr → List Expr
  | [] => []
  | e :: es => e.unplaced :: Expr.unplacedAll es

end

def Source.unplaced : Source → Source
  | .elements e => .elements e.unplaced
  | .range a b inclusive => .range a.unplaced b.unplaced inclusive

mutual

/-- The statement with all lines 0. -/
def Statement.unplaced : Statement → Statement
  | .expression _ e => .expression 0 e.unplaced
  | .declare _ s e => .declare 0 s e.unplaced
  | .assign _ s e => .assign 0 s e.unplaced
  | .compound _ s op e => .compound 0 s op e.unplaced
  | .choice _ bs otherwise => .choice 0 (Statement.unplacedBranches bs) (Statement.unplacedOptional otherwise)
  | .loop _ c body => .loop 0 c.unplaced (Statement.unplacedAll body)
  | .each _ s src body => .each 0 s src.unplaced (Statement.unplacedAll body)
  | .raise _ s => .raise 0 s
  | .attempt _ body hs => .attempt 0 (Statement.unplacedAll body) (Statement.unplacedHandlers hs)
  | .load _ s => .load 0 s

def Statement.unplacedAll : List Statement → List Statement
  | [] => []
  | s :: ss => s.unplaced :: Statement.unplacedAll ss

def Statement.unplacedBranches : List (Expr × List Statement) → List (Expr × List Statement)
  | [] => []
  | (c, body) :: bs => (c.unplaced, Statement.unplacedAll body) :: Statement.unplacedBranches bs

def Statement.unplacedOptional : Option (List Statement) → Option (List Statement)
  | none => none
  | some body => some (Statement.unplacedAll body)

def Statement.unplacedHandlers : List (Handler Statement) → List (Handler Statement)
  | [] => []
  | ⟨s, _, body⟩ :: hs => ⟨s, 0, Statement.unplacedAll body⟩ :: Statement.unplacedHandlers hs

end

/-- The script with all lines 0. -/
def Program.unplaced (p : Program) : Program := Statement.unplacedAll p

end Crunch
