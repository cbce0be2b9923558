import Crunch.Halt
import Crunch.Program
import Crunch.Rejection
import Crunch.Token

/-!
# Crunch.Program.Parse.Expr

Expressions from tokens.

* `Parse.level`: an expression whose operators bind at least as tight as a level of precedence.
* `Parse.expr`: any expression.

Operators of one level group to the left, the power groups to the right, and the operators before
an operand bind looser than the power and tighter than the products; `not` binds looser than the
comparisons. A line may end after an operator between operands, inside parentheses next to them,
and around the elements of a list.

A parser takes fuel and tokens and gives what it read and the tokens after it.
-/

namespace Crunch
namespace Parse

/-- What a parser gives. -/
abbrev Outcome := Except (Halt Rejection)

/-- What was read, and the tokens after it. -/
abbrev Read (α : Type) := α × List Placed

/-- Rejects the script at a line. -/
def reject {α : Type} (line : Nat) (cause : Rejection.Cause) : Outcome α :=
  .error (.error ⟨line, cause⟩)

/-- The tokens after any line ends. -/
def skipLines : List Placed → List Placed
  | (.newLine, _) :: ts => skipLines ts
  | ts => ts

/-- Takes one fixed token and gives its line. -/
def expect (token : Token) (place : String) (line : Nat) : List Placed → Outcome (Read Nat)
  | (t, l) :: ts =>
    if t = token then .ok (l, ts) else reject l (.unexpected (.missing token.text place t.text))
  | [] => reject line .unexpectedEnd

/-- Takes a name. -/
def name (line : Nat) : List Placed → Outcome (Read String)
  | (.identifier s, _) :: ts => .ok (s, ts)
  | (t, l) :: _ => reject l (.unexpected (.noName t.text))
  | [] => reject line .unexpectedEnd

/-- Takes the position of a field. -/
def position (line : Nat) : List Placed → Outcome (Read Nat)
  | (.integer n, l) :: ts =>
    if 0 < n.toInt then .ok (n.toInt.toNat, ts) else reject l (.fieldPosition n)
  | (t, l) :: _ => reject l (.unexpected (.noPosition t.text))
  | [] => reject line .unexpectedEnd

/-- The operator that a token stands for between two operands. -/
def operator? : Token → Option BinaryOp
  | .mark .plus => some .add
  | .mark .minus => some .sub
  | .mark .star => some .mul
  | .mark .slash => some .div
  | .mark .percent => some .mod
  | .mark .starStar => some .power
  | .mark .less => some .less
  | .mark .greater => some .greater
  | .mark .lessEqual => some .lessEqual
  | .mark .greaterEqual => some .greaterEqual
  | .mark .equalEqual => some .equal
  | .mark .bangEqual => some .notEqual
  | .mark .tildeEqual => some .match
  | .keyword .xor => some .xor
  | .keyword .and => some .and
  | .keyword .or => some .or
  | .mark .ampersand => some .bitAnd
  | .mark .pipe => some .bitOr
  | .mark .caret => some .bitXor
  | .mark .shiftLeft => some .shiftLeft
  | .mark .shiftRight => some .shiftRight
  | _ => none

/-- The operator that a token stands for before an operand; `not` has its own level. -/
def sign? : Token → Option UnaryOp
  | .mark .minus => some .negate
  | .mark .plus => some .plus
  | .mark .tilde => some .bitNot
  | _ => none

/-- The constant that a token stands for. -/
def constant? : Token → Option Constant
  | .keyword .null => some .null
  | .bool b => some (.boolean b)
  | .integer n => some (.integer n)
  | .numeric x => some (.numeric x)
  | .imaginary x => some (.imaginary x)
  | .str s => some (.literal s)
  | _ => none

/-- The method after a dot: a name, or `set` with the position of a field. -/
def method (line : Nat) (ts : List Placed) : Outcome (Read Member) := do
  let (s, rest) ← name line ts
  match rest with
  | (.mark .at, _) :: rest' =>
    if s = "set" then
      let (p, rest'') ← position line rest'
      return (.setField p, rest'')
    else return (.named s, rest)
  | _ => return (.named s, rest)

mutual

/-- An expression whose operators have this level or a tighter one. -/
def level : Nat → Nat → List Placed → Outcome (Read Expr)
  | 0, _, _ => .error .outOfFuel
  | fuel + 1, l, ts =>
    if l = UnaryOp.not.level then
      match ts with
      | (.keyword .not, line) :: rest => do
        let (e, rest) ← level fuel l rest
        return (.unary line .not e, rest)
      | _ => level fuel (l + 1) ts
    else if l < UnaryOp.negate.level then do
      let (left, rest) ← level fuel (l + 1) ts
      chain fuel l left rest
    else
      match ts with
      | (t, line) :: rest =>
        match sign? t with
        | some op => do
          let (e, rest) ← level fuel l rest
          return (.unary line op e, rest)
        | none => power fuel ts
      | [] => power fuel ts

/-- Further operators of one level with their right operands, after the expression `left`. -/
def chain : Nat → Nat → Expr → List Placed → Outcome (Read Expr)
  | 0, _, _, _ => .error .outOfFuel
  | fuel + 1, l, left, ts =>
    match ts with
    | (t, line) :: rest =>
      match operator? t with
      | some op =>
        if op.level = l then do
          let (right, rest) ← level fuel (l + 1) (skipLines rest)
          chain fuel l (.binary line op left right) rest
        else .ok (left, ts)
      | none => .ok (left, ts)
    | [] => .ok (left, ts)

/-- An operand, which may be raised to a power. -/
def power : Nat → List Placed → Outcome (Read Expr)
  | 0, _ => .error .outOfFuel
  | fuel + 1, ts => do
    let (e, rest) ← primary fuel ts
    let (base, rest) ← postfixes fuel e rest
    match rest with
    | (.mark .starStar, line) :: rest => do
      let (exponent, rest) ← level fuel UnaryOp.negate.level (skipLines rest)
      return (.binary line .power base exponent, rest)
    | _ => return (base, rest)

/-- A constant, name, call, list or parenthesised expression. -/
def primary : Nat → List Placed → Outcome (Read Expr)
  | 0, _ => .error .outOfFuel
  | fuel + 1, ts =>
    match ts with
    | [] => reject 0 .unexpectedEnd
    | (.mark .lParen, line) :: rest => do
      let (e, rest) ← level fuel 0 (skipLines rest)
      match skipLines rest with
      | (.mark .rParen, _) :: rest => return (e, rest)
      | _ => reject line .unclosedGroup
    | (.mark .lBracket, line) :: rest => do
      let (es, rest) ← list fuel .rBracket line rest
      return (.collection line es, rest)
    | (.identifier s, line) :: rest =>
      match rest with
      | (.mark .lParen, _) :: rest => do
        let (es, rest) ← list fuel .rParen line rest
        return (.call line s es, rest)
      | _ => .ok (.var line s, rest)
    | (t, line) :: rest =>
      match constant? t with
      | some c => .ok (.constant line c, rest)
      | none => reject line (.unexpected (.piece t.text))

/-- Indices, fields and member calls after the expression `e`. -/
def postfixes : Nat → Expr → List Placed → Outcome (Read Expr)
  | 0, _, _ => .error .outOfFuel
  | fuel + 1, e, ts =>
    match ts with
    | (.mark .lBracket, line) :: rest => do
      let (i, rest) ← level fuel 0 rest
      let (_, rest) ← expect (.mark .rBracket) "after index" line rest
      postfixes fuel (.index line e i) rest
    | (.mark .at, line) :: rest => do
      let (p, rest) ← position line rest
      postfixes fuel (.field line e p) rest
    | (.mark .dot, line) :: rest => do
      let (m, rest) ← method line rest
      let (opening, rest) ← expect (.mark .lParen) s!"after '.{m.text}'" line rest
      let (es, rest) ← list fuel .rParen opening rest
      postfixes fuel (.member line e m es) rest
    | _ => .ok (e, ts)

/-- The elements of a list up to its closing bracket, which may follow at once. -/
def list : Nat → Mark → Nat → List Placed → Outcome (Read (List Expr))
  | 0, _, _, _ => .error .outOfFuel
  | fuel + 1, closing, line, ts =>
    match skipLines ts with
    | (t, l) :: rest =>
      if t = .mark closing then .ok ([], rest) else elements fuel closing line ((t, l) :: rest)
    | [] => elements fuel closing line []

/-- At least one element, and the closing bracket. -/
def elements : Nat → Mark → Nat → List Placed → Outcome (Read (List Expr))
  | 0, _, _, _ => .error .outOfFuel
  | fuel + 1, closing, line, ts => do
    let (e, rest) ← level fuel 0 (skipLines ts)
    match skipLines rest with
    | [] => reject line .unexpectedEnd
    | (t, l) :: rest =>
      if t = .mark closing then return ([e], rest)
      else if t = .mark .comma then
        let (es, rest) ← elements fuel closing line rest
        return (e :: es, rest)
      else reject l (.unexpected (.inList closing.spelling t.text))

end

/-- Any expression. -/
def expr (fuel : Nat) (ts : List Placed) : Outcome (Read Expr) := level fuel 0 ts

end Parse
end Crunch
