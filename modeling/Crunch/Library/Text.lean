import Crunch.Count
import Crunch.Text.Case
import Crunch.Value

/-!
# Crunch.Library.Text

Functions of literals. Positions and lengths count characters.
-/

namespace Crunch
namespace Library

/-- A function of the characters of a literal. -/
def onText (f : List Char → List Char) (v : Value) : Except Fault.Cause Value :=
  v.literal?.map fun s => .literal (String.ofList (f s.toList))

/-- The part of a text from a position on, up to some length. -/
def substring (v index : Value) (length : Option Value) : Except Fault.Cause Value := do
  let cs := (← v.literal?).toList
  let start ← gapPosition (← index.integer?) cs.length
  match length with
  | none => return .literal (String.ofList (cs.drop start))
  | some n =>
    let n ← count (← n.integer?) "substring length"
    return .literal (String.ofList ((cs.drop start).take n))

/-- The last characters of a text. -/
def lastPart (v length : Value) : Except Fault.Cause Value := do
  let cs := (← v.literal?).toList
  let n ← count (← length.integer?) "substring length"
  return .literal (String.ofList (cs.drop (cs.length - n)))

/-- The literal of one character with a number. -/
def ofCode (v : Value) : Except Fault.Cause Value := do
  let c ← character (← v.integer?)
  return .literal (String.ofList [c])

end Library
end Crunch
