import Crunch.Decimal.Reading
import Crunch.Fault

/-!
# Crunch.Count

Integers of a script as positions, counts and bytes, and counts as integers of a script.
-/

namespace Crunch

/-- A position; negative ones are outside every size. -/
def position (n : Int64) (size : Nat) : Except Fault.Cause Nat :=
  if 0 ≤ n.toInt then .ok n.toInt.toNat else .error (.indexRange n size)

/-- The position of an element. -/
def elementPosition (n : Int64) (size : Nat) : Except Fault.Cause Nat :=
  if 0 ≤ n.toInt ∧ n.toInt < size then .ok n.toInt.toNat else .error (.indexRange n size)

/-- A position between elements, before the first or after the last one. -/
def gapPosition (n : Int64) (size : Nat) : Except Fault.Cause Nat :=
  if 0 ≤ n.toInt ∧ n.toInt ≤ size then .ok n.toInt.toNat else .error (.indexRange n size)

/-- How many of something. -/
def count (n : Int64) (what : String) : Except Fault.Cause Nat :=
  if 0 ≤ n.toInt then .ok n.toInt.toNat else .error (.outOfRange (.negative what n))

/-- Bytes that a machine can address. -/
def addressable : Nat := Nat.pow 2 47

/-- A number of elements of some bytes each that a machine can hold. -/
def room (n width : Nat) (what : String) : Except Fault.Cause Nat :=
  if n * width ≤ addressable then .ok n else .error (.outOfRange (.tooLarge what n))

/-- A number from 0 to 255. -/
def byte (n : Int64) : Except Fault.Cause UInt8 :=
  if 0 ≤ n.toInt ∧ n.toInt < 256 then .ok (UInt8.ofNat n.toInt.toNat) else .error (.outOfRange (.notAByte n))

/-- A length as an integer of a script, at most the largest one. -/
def lengthOf (n : Nat) : Int64 := Int64.ofInt (min n Decimal.maxInt)

/-- A numeric truncated toward zero. -/
def truncate (x : Float) : Except Fault.Cause Int64 :=
  match (Double.truncate? x).bind Decimal.fit? with
  | some n => .ok n
  | none => .error (.outOfRange (.notAnInteger x))

/-- A character by its number, which is positive. -/
def character (n : Int64) : Except Fault.Cause Char :=
  let code := n.toInt.toNat
  if 0 < n.toInt ∧ code.isValidChar then .ok (Char.ofNat code) else .error (.outOfRange (.characterCode n))

/-- A character with a number from 1 to 255. -/
def narrowCharacter (n : Int64) : Except Fault.Cause Char :=
  if 0 < n.toInt ∧ n.toInt < 256 then .ok (Char.ofNat n.toInt.toNat)
  else .error (.outOfRange (.characterCode n))

end Crunch
