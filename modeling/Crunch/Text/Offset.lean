import Crunch.Text.Utf8

/-!
# Crunch.Text.Offset

Texts cut at byte offsets.

* `Text.offset`: where a character starts, in bytes.
* `Text.before?`, `Text.from?`: the text up to an offset, and the text from it on. Inside a character
  there is no cut.
* `Text.charAt?`: the character that starts at an offset.
* `Text.splice?`: the text with the bytes from one offset up to another one replaced.
-/

namespace Crunch
namespace Text

/-- The byte offset of a character, by the number of characters before it. Behind the last one it is the
number of bytes. -/
def offset (cs : List Char) (p : Nat) : Nat := (cs.take p).foldl (fun n c => n + c.utf8Size) 0

/-- The text up to a byte offset, unless the offset lies inside a character or behind the end. -/
def before? (s : String) (i : Nat) : Option String :=
  let bytes := Utf8.encode s
  if i ≤ bytes.length then Utf8.decode? (bytes.take i) else none

/-- The text from a byte offset on, unless the offset lies inside a character or behind the end. -/
def from? (s : String) (i : Nat) : Option String :=
  let bytes := Utf8.encode s
  if i ≤ bytes.length then Utf8.decode? (bytes.drop i) else none

/-- The character that starts at a byte offset. -/
def charAt? (s : String) (i : Nat) : Option Char := (from? s i).bind (·.toList.head?)

/-- The text with the bytes from one offset up to another one replaced, unless this cuts a character. -/
def splice? (s : String) (start stop : Nat) (more : String) : Option String :=
  match before? s start, from? s stop with
  | some front, some back => some (front ++ more ++ back)
  | _, _ => none

end Text
end Crunch
