import Crunch.Collection
import Crunch.Row

/-!
# Crunch.Library.Convert

Conversions between kinds, and the building of tuples and collections.
-/

namespace Crunch
namespace Library

/-- The number that a text denotes between blanks. -/
def readNumeric (s : String) : Except Fault.Cause Float :=
  match Decimal.double? (Text.trim s.toList) with
  | some x => .ok x
  | none => .error (.notANumber s)

/-- The real component of an imaginary that has no other one. -/
def realPart (z : Imaginary) (what : String) : Except Fault.Cause Float :=
  if z.im == 0.0 then .ok z.re else .error (.outOfRange (.notReal z.text what))

/-- The error for a kind that does not convert. -/
def unconvertible (v : Value) (what : String) : Fault.Cause := .mismatch (.conversion v.type what)

/-- Literals may be the words for truth values in any case, or numbers. -/
def toBoolean (v : Value) : Except Fault.Cause Value :=
  match v with
  | .boolean b => .ok (.boolean b)
  | .integer n => .ok (.boolean (n != 0))
  | .numeric x => .ok (.boolean (x != 0.0))
  | .imaginary z => .ok (.boolean (!z.isZero))
  | .literal s =>
    let word := Decimal.lowerAscii (Text.trim s.toList)
    if word = "true".toList then .ok (.boolean true)
    else if word = "false".toList then .ok (.boolean false)
    else (readNumeric s).map fun x => .boolean (x != 0.0)
  | v => .error (unconvertible v "boolean")

def toNumeric (v : Value) : Except Fault.Cause Value :=
  match v with
  | .boolean b => .ok (.numeric (if b then 1.0 else 0.0))
  | .integer n => .ok (.numeric n.toFloat)
  | .numeric x => .ok (.numeric x)
  | .imaginary z => (realPart z "numeric").map .numeric
  | .literal s => (readNumeric s).map .numeric
  | v => .error (unconvertible v "numeric")

/-- Literals that are no integers may still be numerics, which lose their fraction. -/
def toInteger (v : Value) : Except Fault.Cause Value :=
  match v with
  | .boolean b => .ok (.integer (if b then 1 else 0))
  | .integer n => .ok (.integer n)
  | .numeric x => (truncate x).map .integer
  | .imaginary z => do
    let x ← realPart z "integer"
    return .integer (← truncate x)
  | .literal s =>
    match Decimal.int64? (Text.trim s.toList) with
    | some n => .ok (.integer n)
    | none => do
      let x ← readNumeric s
      return .integer (← truncate x)
  | v => .error (unconvertible v "integer")

/-- Bytes that one value takes. -/
def valueWidth : Nat := 56

/-- A collection of `n` copies of a value. -/
def table (n init : Value) : Except Fault.Cause Value :=
  if n.isNull then .ok (.null init.type.arrayOf)
  else do
    let n ← n.integer?
    let n ← count n "collection size"
    let n ← room n valueWidth "collection size"
    let c ← Collection.ofValues (List.replicate n init)
    let c ← c.retype init.type
    return c.value

end Library
end Crunch
