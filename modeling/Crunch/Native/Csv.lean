import Crunch.Collection
import Crunch.Native

/-!
# Crunch.Native.Csv

The native type `csv`: lines of separated fields in one dialect.
-/

namespace Crunch
namespace Csv

/-- Constructors `csv()`, `csv(separator)` and `csv(separator, quote)`, and the methods. -/
def interface : Interface where
  name := "csv"
  constructors := [
    [],
    [⟨"separator", Ty.literal, .input⟩],
    [⟨"separator", Ty.literal, .input⟩, ⟨"quote", Ty.literal, .input⟩]]
  methods := [
    ⟨"deserialize", Ty.literal.arrayOf, [⟨"line", Ty.literal, .input⟩]⟩,
    ⟨"serialize", Ty.literal, [⟨"fields", Ty.literal.arrayOf, .input⟩]⟩,
    ⟨"separator", Ty.literal, []⟩]

/-- A literal of one character. -/
def character (v : Value) (what : String) : Except Fault.Cause Char := do
  let s ← v.literal?
  match s.toList with
  | [c] => return c
  | _ => .error (interface.refuse s!"{what} must be one character, found {Text.quoted s}")

/-- The dialect with the characters given, which have to differ. -/
def dialect (args : List Value) : Except Fault.Cause Dialect := do
  let plain : Dialect := {}
  let separator ← (args[0]?).elim (pure plain.separator) (character · "separator")
  let quote ← (args[1]?).elim (pure plain.quote) (character · "quote")
  if separator = quote then .error (interface.refuse "separator and quote must differ")
  else return ⟨separator, quote⟩

/-- The fields of a line; a null line has null fields. -/
def deserialize (d : Dialect) (line : Value) : Except Fault.Cause Value :=
  if line.isNull then .ok (.null Ty.literal.arrayOf)
  else do
    let s ← line.literal?
    match d.split s.toList with
    | some fields => return .collection Ty.literal (fields.map fun f => .literal (String.ofList f))
    | none => .error (interface.refuse "unterminated quoted field")

/-- The line of a collection; a null element is an empty field. -/
def serialize (d : Dialect) (fields : Value) : Except Fault.Cause Value := do
  let c ← Collection.ofValue? fields
  let texts := c.items.map fun v => if v.isNull then [] else v.text.toList
  return .literal (String.ofList (d.join texts))

/-- A method by its number. -/
def invoke (d : Dialect) (method : Nat) (args : List Argument) : Except Fault.Cause Value :=
  match method, args with
  | 0, [a] => deserialize d a.value
  | 1, [a] => serialize d a.value
  | 2, [] => .ok (.literal (String.singleton d.separator))
  | n, _ => .error (interface.noMethod n)

/-- The type `csv`. -/
def nativeType : NativeType where
  interface := interface
  construct _ args disk := (dialect args).map fun d => (.dialect d, disk)
  invoke
    | .dialect d, method, args => Action.ofExcept (invoke d method args)
    | _, _, _ => .fail interface.foreign
  destroy _ disk := disk

end Csv
end Crunch
