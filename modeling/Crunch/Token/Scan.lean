import Crunch.Rejection
import Crunch.Token

/-!
# Crunch.Token.Scan

Scripts as tokens.

* `scan`: what starts with a character, given the characters after it. The longest token wins.
* `tokenize`: the tokens of a script, each with one plus the number of line ends before it.

Blanks and comments separate tokens. A block comment is read in items, a character other than `*`
or a `*` with the following character other than `/`, and ends at the first `*/` between two items.
Text that starts no token is rejected, an open string or comment as a whole up to its last
complete item.
-/

namespace Crunch

/-- What starts at a place of the text. -/
inductive Lexeme where
  | token (t : Token)
  /-- Blanks or a comment. -/
  | gap
  /-- No token. -/
  | bad
deriving DecidableEq, Repr

namespace Scan

/-- Start of a name. -/
def isNameStart (c : Char) : Bool := c.isAlpha || c == '_'

/-- Part of a name. -/
def isNameChar (c : Char) : Bool := c.isAlphanum || c == '_'

/-- Separates tokens within a line. -/
def isGap (c : Char) : Bool := c == ' ' || c == '\t' || c == '\x0c' || c == '\r'

def isHexDigit (c : Char) : Bool :=
  Decimal.isDigit c || ('a' ≤ c && c ≤ 'f') || ('A' ≤ c && c ≤ 'F')

/-- Value of a hexadecimal digit. -/
def hexValue (c : Char) : Nat :=
  if Decimal.isDigit c then c.toNat - '0'.toNat
  else if 'a' ≤ c then c.toNat - 'a'.toNat + 10
  else c.toNat - 'A'.toNat + 10

/-- The number that the digits denote in base sixteen. -/
def hexValueOf (cs : List Char) : Nat := cs.foldl (fun n c => 16 * n + hexValue c) 0

/-- The character that an escape stands for. -/
def escape? : Char → Option Char
  | 'n' => some '\n'
  | 't' => some '\t'
  | 'r' => some '\r'
  | '0' => some '\x00'
  | '\\' => some '\\'
  | '"' => some '"'
  | '\x27' => some '\x27'
  | _ => none

/-- A text with its escapes resolved. -/
def unescape : List Char → Option (List Char)
  | [] => some []
  | c :: rest =>
    if c = '\\' then
      match rest with
      | [] => none
      | e :: rest' =>
        match escape? e, unescape rest' with
        | some c', some cs => some (c' :: cs)
        | _, _ => none
    else (unescape rest).map (c :: ·)

/-- Characters in the complete items of a string's body: a backslash with the character after it,
or one other character. A line end is in neither. -/
def bodyWidth : List Char → Nat
  | [] => 0
  | c :: rest =>
    if c = '\\' then
      match rest with
      | [] => 0
      | e :: rest' => if e = '\n' then 0 else 2 + bodyWidth rest'
    else if c = '"' ∨ c = '\n' then 0
    else 1 + bodyWidth rest

/-- Characters in the complete items of a comment's body, and whether it is closed after them. -/
def commentWidth : List Char → Nat × Bool
  | [] => (0, false)
  | c :: rest =>
    if c = '*' then
      match rest with
      | [] => (0, false)
      | d :: rest' =>
        if d = '/' then (0, true)
        else
          let (n, closed) := commentWidth rest'
          (2 + n, closed)
    else
      let (n, closed) := commentWidth rest
      (1 + n, closed)

/-- Characters of a point with digits after it. -/
def fractionWidth : List Char → Nat
  | '.' :: rest => match (rest.takeWhile Decimal.isDigit).length with
    | 0 => 0
    | n => n + 1
  | _ => 0

/-- Characters of an exponent: the letter, a sign, and digits. -/
def exponentWidth : List Char → Nat
  | e :: rest =>
    if e = 'e' ∨ e = 'E' then
      let (sign, ds) := match rest with
        | '+' :: r => (1, r)
        | '-' :: r => (1, r)
        | r => (0, r)
      match (ds.takeWhile Decimal.isDigit).length with
      | 0 => 0
      | n => 1 + sign + n
    else 0
  | [] => 0

/-- A token, or nothing when its value does not exist. -/
def orBad : Option Token → Lexeme
  | some t => .token t
  | none => .bad

/-- A decimal number, which may be imaginary, and its width. -/
def decimalNumber (cs : List Char) : Lexeme × Nat :=
  let whole := (cs.takeWhile Decimal.isDigit).length
  let fraction := fractionWidth (cs.drop whole)
  let exponent := exponentWidth (cs.drop (whole + fraction))
  let width := whole + fraction + exponent
  let text := cs.take width
  match cs.drop width with
  | 'i' :: _ => (orBad ((Decimal.double? text).map .imaginary), width + 1)
  | _ =>
    if fraction = 0 ∧ exponent = 0 then
      (orBad ((Decimal.fit? (Decimal.valueOf text)).map .integer), width)
    else (orBad ((Decimal.double? text).map .numeric), width)

/-- A number that starts with a digit or a point, and its width. -/
def number : List Char → Lexeme × Nat
  | '0' :: x :: rest =>
    let ds := rest.takeWhile isHexDigit
    if (x = 'x' ∨ x = 'X') ∧ ds ≠ [] then
      (orBad ((Decimal.fit? (hexValueOf ds)).map .integer), 2 + ds.length)
    else decimalNumber ('0' :: x :: rest)
  | cs => decimalNumber cs

/-- After a double quote: a string, or an open one. -/
def string (rest : List Char) : Lexeme × Nat :=
  let n := bodyWidth rest
  match rest.drop n with
  | '"' :: _ => (orBad ((unescape (rest.take n)).map fun cs => .str (String.ofList cs)), n + 1)
  | _ => (.bad, n)

/-- A character as the integer token of its number. -/
def codeToken (c : Char) : Token := .integer (Int64.ofNat c.toNat)

/-- After a single quote: one character or escape, and the closing quote. -/
def character : List Char → Lexeme × Nat
  | '\\' :: e :: '\x27' :: _ =>
    if e = '\n' then (.bad, 0) else (orBad ((escape? e).map codeToken), 3)
  | c :: '\x27' :: _ =>
    if c = '\x27' ∨ c = '\\' ∨ c = '\n' then (.bad, 0) else (.token (codeToken c), 2)
  | _ => (.bad, 0)

/-- After a slash and a star: a block comment, or an open one. -/
def comment (rest : List Char) : Lexeme × Nat :=
  let (n, closed) := commentWidth rest
  if closed then (.gap, n + 3) else (.bad, n + 1)

/-- Punctuation, with the number of characters after its first. -/
def mark? : Char → List Char → Option (Mark × Nat)
  | '.', '.' :: '=' :: _ => some (.dotDotEq, 2)
  | '.', '.' :: _ => some (.dotDot, 1)
  | '.', _ => some (.dot, 0)
  | '+', '=' :: _ => some (.plusAssign, 1)
  | '+', _ => some (.plus, 0)
  | '-', '=' :: _ => some (.minusAssign, 1)
  | '-', _ => some (.minus, 0)
  | '*', '*' :: _ => some (.starStar, 1)
  | '*', '=' :: _ => some (.mulAssign, 1)
  | '*', _ => some (.star, 0)
  | '/', '=' :: _ => some (.divAssign, 1)
  | '/', _ => some (.slash, 0)
  | '%', '=' :: _ => some (.modAssign, 1)
  | '%', _ => some (.percent, 0)
  | '@', _ => some (.at, 0)
  | '&', _ => some (.ampersand, 0)
  | '|', _ => some (.pipe, 0)
  | '^', _ => some (.caret, 0)
  | '~', '=' :: _ => some (.tildeEqual, 1)
  | '~', _ => some (.tilde, 0)
  | '<', '<' :: _ => some (.shiftLeft, 1)
  | '<', '=' :: _ => some (.lessEqual, 1)
  | '<', _ => some (.less, 0)
  | '>', '>' :: _ => some (.shiftRight, 1)
  | '>', '=' :: _ => some (.greaterEqual, 1)
  | '>', _ => some (.greater, 0)
  | '(', _ => some (.lParen, 0)
  | ')', _ => some (.rParen, 0)
  | '=', '=' :: _ => some (.equalEqual, 1)
  | '=', _ => some (.equals, 0)
  | '!', '=' :: _ => some (.bangEqual, 1)
  | '\x7b', _ => some (.lBrace, 0)
  | '\x7d', _ => some (.rBrace, 0)
  | '[', _ => some (.lBracket, 0)
  | ']', _ => some (.rBracket, 0)
  | ',', _ => some (.comma, 0)
  | ';', _ => some (.semicolon, 0)
  | _, _ => none

/-- Whether a number starts here. -/
def startsNumber (c : Char) (rest : List Char) : Bool :=
  Decimal.isDigit c || (c == '.' && fractionWidth (c :: rest) != 0)

/-- What starts with the character `c` before `rest`, and how many characters of `rest` it takes. -/
def scan (c : Char) (rest : List Char) : Lexeme × Nat :=
  if startsNumber c rest then
    let (l, n) := number (c :: rest)
    (l, n - 1)
  else if isNameStart c then
    let tail := rest.takeWhile isNameChar
    (.token (Token.ofWord (String.ofList (c :: tail))), tail.length)
  else if isGap c then (.gap, (rest.takeWhile isGap).length)
  else if c = '\n' then (.token .newLine, 0)
  else if c = '"' then string rest
  else if c = '\x27' then character rest
  else
    match c, rest with
    | '/', '/' :: tail => (.gap, 1 + (tail.takeWhile fun d => d != '\n' && d != '\r').length)
    | '/', '*' :: tail => comment tail
    | _, _ =>
      match mark? c rest with
      | some (m, n) => (.token (.mark m), n)
      | none => (.bad, 0)

/-- Line ends in a text. -/
def lineEnds (cs : List Char) : Nat := cs.count '\n'

/-- The tokens of a text that starts on a line. -/
def tokensFrom (line : Nat) : List Char → Except Rejection (List Placed)
  | [] => .ok []
  | c :: rest =>
    let (l, n) := scan c rest
    let taken := c :: rest.take n
    match l with
    | .bad => .error ⟨line, .unexpected (.piece (String.ofList taken))⟩
    | .gap => tokensFrom (line + lineEnds taken) (rest.drop n)
    | .token t =>
      match tokensFrom (line + lineEnds taken) (rest.drop n) with
      | .ok ts => .ok ((t, line) :: ts)
      | .error e => .error e
termination_by cs => cs.length
decreasing_by all_goals simp only [List.length_cons, List.length_drop]; omega

end Scan

/-- The tokens of a script. -/
def tokenize (source : String) : Except Rejection (List Placed) := Scan.tokensFrom 1 source.toList

end Crunch
