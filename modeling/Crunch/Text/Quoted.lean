import Crunch.Text.CharClass

/-!
# Crunch.Text.Quoted

Texts as they stand inside tuples, collections and messages: in double quotes, with escapes for
the quote, the backslash, common controls and everything that would not show or would merge with
its neighbour. Also the trimming of blanks.
-/

namespace Crunch
namespace Text

/-- Lower case hexadecimal digits of a natural. -/
def hexDigits (n : Nat) : List Char := Nat.toDigits 16 n

/-- A character by its number: `\u` and hexadecimal digits in braces. -/
def numericEscape (c : Char) : List Char :=
  '\\' :: 'u' :: '\x7b' :: hexDigits c.toNat ++ ['\x7d']

/-- A character inside quotes. -/
def quoteChar (c : Char) : List Char :=
  if c = '\x00' then ['\\', '0']
  else if c = '\t' then ['\\', 't']
  else if c = '\r' then ['\\', 'r']
  else if c = '\n' then ['\\', 'n']
  else if c = '"' then ['\\', '"']
  else if c = '\\' then ['\\', '\\']
  else if isMark c || !isPrintable c then numericEscape c
  else [c]

/-- A text in double quotes. -/
def quoted (s : String) : String :=
  String.ofList ('"' :: s.toList.flatMap quoteChar ++ ['"'])

/-- Without the blanks at the start. -/
def trimLeft (cs : List Char) : List Char := cs.dropWhile isBlank

/-- Without the blanks at the end. -/
def trimRight (cs : List Char) : List Char := (cs.reverse.dropWhile isBlank).reverse

/-- Without the blanks at both ends. -/
def trim (cs : List Char) : List Char := trimRight (trimLeft cs)

end Text
end Crunch
