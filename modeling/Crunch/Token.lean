import Crunch.Decimal.Reading
import Crunch.Text.Quoted

/-!
# Crunch.Token

The words of a script.

* `Keyword`, `Mark`: words and punctuation with one fixed spelling.
* `Token`: these, literals, names and line ends.
* `Token.text`: the form in which messages show a token.
-/

namespace Crunch

inductive Keyword where
  | null | let | if | else | while | for | in | do | try | catch | raise | import | and | or | xor | not
deriving DecidableEq, Repr

inductive Mark where
  | dotDotEq | dotDot | dot
  | plusAssign | minusAssign | mulAssign | divAssign | modAssign
  | at | plus | minus | starStar | star | slash | percent
  | ampersand | pipe | caret | tilde | shiftLeft | shiftRight
  | lParen | rParen | equals | lBrace | rBrace | lBracket | rBracket | comma
  | equalEqual | bangEqual | tildeEqual | lessEqual | greaterEqual | less | greater
  | semicolon
deriving DecidableEq, Repr

inductive Token where
  | numeric (x : Float)
  /-- Holds the imaginary component. -/
  | imaginary (x : Float)
  | integer (n : Int64)
  /-- A string with its escapes resolved. -/
  | str (s : String)
  | bool (b : Bool)
  | keyword (k : Keyword)
  | identifier (name : String)
  | mark (m : Mark)
  | newLine
deriving DecidableEq, Repr

def Keyword.spelling : Keyword → String
  | .null => "null"
  | .let => "let"
  | .if => "if"
  | .else => "else"
  | .while => "while"
  | .for => "for"
  | .in => "in"
  | .do => "do"
  | .try => "try"
  | .catch => "catch"
  | .raise => "raise"
  | .import => "import"
  | .and => "and"
  | .or => "or"
  | .xor => "xor"
  | .not => "not"

/-- All keywords but the two truth values. -/
def Keyword.all : List Keyword :=
  [.null, .let, .if, .else, .while, .for, .in, .do, .try, .catch, .raise, .import, .and, .or, .xor,
   .not]

def Mark.spelling : Mark → String
  | .dotDotEq => "..="
  | .dotDot => ".."
  | .dot => "."
  | .plusAssign => "+="
  | .minusAssign => "-="
  | .mulAssign => "*="
  | .divAssign => "/="
  | .modAssign => "%="
  | .at => "@"
  | .plus => "+"
  | .minus => "-"
  | .starStar => "**"
  | .star => "*"
  | .slash => "/"
  | .percent => "%"
  | .ampersand => "&"
  | .pipe => "|"
  | .caret => "^"
  | .tilde => "~"
  | .shiftLeft => "<<"
  | .shiftRight => ">>"
  | .lParen => "("
  | .rParen => ")"
  | .equals => "="
  | .lBrace => "\x7b"
  | .rBrace => "\x7d"
  | .lBracket => "["
  | .rBracket => "]"
  | .comma => ","
  | .equalEqual => "=="
  | .bangEqual => "!="
  | .tildeEqual => "~="
  | .lessEqual => "<="
  | .greaterEqual => ">="
  | .less => "<"
  | .greater => ">"
  | .semicolon => ";"

/-- The word for a truth value. -/
def boolText (b : Bool) : String := if b then "true" else "false"

/-- A 64-bit integer in decimal. -/
def integerText (n : Int64) : String := toString n.toInt

/-- The form in which messages show a token. -/
def Token.text : Token → String
  | .numeric x => Decimal.positional x
  | .imaginary x => Decimal.positional x ++ "i"
  | .integer n => integerText n
  | .str s => Text.quoted s
  | .bool b => boolText b
  | .keyword k => k.spelling
  | .identifier name => name
  | .mark m => m.spelling
  | .newLine => "end of line"

/-- The token of a word: a keyword, a truth value or a name. -/
def Token.ofWord (word : String) : Token :=
  match Keyword.all.find? (·.spelling == word) with
  | some k => .keyword k
  | none => if word = "true" then .bool true else if word = "false" then .bool false
    else .identifier word

/-- A token with the line it stands on. -/
abbrev Placed := Token × Nat

end Crunch
