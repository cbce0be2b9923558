import Crunch.Pattern.CharSet

/-!
# Crunch.Pattern

Regular expressions of the engine that the command line runs, and where they match.

* `Pattern`: the expressions.
* `Pattern.ends`: the positions that a match can end at, from the positions it can start at.
* `Pattern.isMatch`: whether some part of a text matches.

Positions lie between the characters of a text. A set of them is a natural whose bit `i` tells
whether the position before character `i` belongs to it.
-/

namespace Crunch

/-- Conditions on a position. -/
inductive Assertion where
  | textStart | textEnd
  | lineStart | lineEnd
  /-- With a carriage return as a line end of its own or with a line feed. -/
  | returnLineStart | returnLineEnd
  | wordBoundary | notWordBoundary
  | wordStart | wordEnd | wordStartHalf | wordEndHalf
deriving DecidableEq, Repr

/-- Whether a condition holds between two neighbours, of which one or both are missing at the ends
of the text. -/
def Assertion.holds (a : Assertion) (isWord : Char → Bool) (before after : Option Char) : Bool :=
  let wordBefore := before.any isWord
  let wordAfter := after.any isWord
  match a with
  | .textStart => before.isNone
  | .textEnd => after.isNone
  | .lineStart => before.isNone || before == some '\n'
  | .lineEnd => after.isNone || after == some '\n'
  | .returnLineStart =>
    before.isNone || before == some '\n' || (before == some '\r' && after != some '\n')
  | .returnLineEnd =>
    after.isNone || after == some '\r' || (after == some '\n' && before != some '\r')
  | .wordBoundary => wordBefore != wordAfter
  | .notWordBoundary => wordBefore == wordAfter
  | .wordStart => !wordBefore && wordAfter
  | .wordEnd => wordBefore && !wordAfter
  | .wordStartHalf => !wordBefore
  | .wordEndHalf => !wordAfter

inductive Pattern where
  | empty
  | char (s : CharSet)
  /-- A condition, whose words are made of the characters of a set. -/
  | assert (a : Assertion) (letters : CharSet)
  | group (p : Pattern)
  | seq (ps : List Pattern)
  | alt (ps : List Pattern)
  | repeated (p : Pattern) (least : Nat) (most : Option Nat)
deriving Repr

namespace Pattern

/-- The positions whose neighbours satisfy a condition, from position `i` on. -/
def selectFrom (f : Option Char → Option Char → Bool) (i : Nat) (before : Option Char) :
    List Char → Nat
  | [] => if f before none then 1 <<< i else 0
  | c :: cs => (if f before (some c) then 1 <<< i else 0) ||| selectFrom f (i + 1) (some c) cs

/-- The positions of a text whose neighbours satisfy a condition. -/
def select (f : Option Char → Option Char → Bool) (text : List Char) : Nat :=
  selectFrom f 0 none text

/-- All positions of a text. -/
def positions (text : List Char) : Nat := select (fun _ _ => true) text

/-- Applies a function up to `n` times, no further than to a fixed point. -/
def iterate (f : Nat → Nat) : Nat → Nat → Nat
  | 0, s => s
  | n + 1, s =>
    let t := f s
    if t = s then s else iterate f n t

mutual

/-- The positions that a match can end at when it starts at one of `s`. Repetitions beyond the
length of the text add nothing. -/
def ends (text : List Char) : Pattern → Nat → Nat
  | .empty, s => s
  | .char set, s => (s &&& select (fun _ after => after.any set.mem) text) <<< 1
  | .assert a letters, s => s &&& select (a.holds letters.mem) text
  | .group p, s => ends text p s
  | .seq ps, s => endsSeq text ps s
  | .alt ps, s => endsAlt text ps s
  | .repeated p least most, s =>
    let bound := text.length + 2
    let from_ := iterate (ends text p) (min least bound) s
    let further := match most with
      | some m => min (m - least) bound
      | none => bound
    iterate (fun t => t ||| ends text p t) further from_

/-- One pattern after the other. -/
def endsSeq (text : List Char) : List Pattern → Nat → Nat
  | [], s => s
  | p :: ps, s => endsSeq text ps (ends text p s)

/-- Any one of the patterns. -/
def endsAlt (text : List Char) : List Pattern → Nat → Nat
  | [], _ => 0
  | p :: ps, s => ends text p s ||| endsAlt text ps s

end

/-- Whether some part of the text matches. -/
def isMatch (p : Pattern) (text : List Char) : Bool := ends text p (positions text) != 0

end Pattern
end Crunch
