import Crunch.Decimal.Numeral

/-!
# Crunch.Decimal.Reading

Decimal text read as numbers.

* `natural?`: a run of ASCII digits.
* `int64?`: an optional sign and digits within 64 bits.
* `double?`: an optional sign, then `inf`, `infinity` or `nan` in any case, or digits with an
  optional point and exponent; the result is the double nearest to the exact value.
-/

namespace Crunch
namespace Decimal

/-- ASCII decimal digits only. -/
def isDigit (c : Char) : Bool := '0' ≤ c && c ≤ '9'

/-- Value of a digit. -/
def digitValue (c : Char) : Nat := c.toNat - '0'.toNat

/-- The number that the digits denote in base ten. -/
def valueOf (cs : List Char) : Nat := cs.foldl (fun n c => 10 * n + digitValue c) 0

/-- A non-empty run of digits. -/
def natural? (cs : List Char) : Option Nat :=
  if cs ≠ [] ∧ cs.all isDigit then some (valueOf cs) else none

/-- A leading sign, if any, and what follows it. -/
def splitSign : List Char → Bool × List Char
  | '-' :: cs => (true, cs)
  | '+' :: cs => (false, cs)
  | cs => (false, cs)

/-- Largest and smallest 64-bit integers. -/
def maxInt : Int := 9223372036854775807
def minInt : Int := -9223372036854775808

/-- An integer that fits 64 bits. -/
def fit? (n : Int) : Option Int64 :=
  if minInt ≤ n ∧ n ≤ maxInt then some (Int64.ofInt n) else none

/-- A 64-bit integer with an optional sign. -/
def int64? (cs : List Char) : Option Int64 :=
  let (negative, ds) := splitSign cs
  match natural? ds with
  | some n => fit? (if negative then -(n : Int) else n)
  | none => none

/-- The double nearest to `coefficient * 10 ^ exponent`. Exponents far beyond the range of doubles
are settled without computing the power. -/
def toDouble (negative : Bool) (d : Decimal) : Float :=
  let size : Int := d.exponent + (digits d.coefficient).length
  if d.coefficient = 0 ∨ size < -400 then Double.ofRatio negative 0 1
  else if size > 400 then Double.ofRatio negative (Nat.pow 2 1024) 1
  else if d.exponent ≥ 0 then Double.ofRatio negative (d.coefficient * Nat.pow 10 d.exponent.toNat) 1
  else Double.ofRatio negative d.coefficient (Nat.pow 10 (-d.exponent).toNat)

/-- The exponent part of a numeral: nothing, or `e` with an integer. -/
def exponent? : List Char → Option Int
  | [] => some 0
  | c :: cs =>
    if c = 'e' ∨ c = 'E' then
      let (negative, ds) := splitSign cs
      (natural? ds).map fun n => if negative then -(n : Int) else n
    else none

/-- An unsigned decimal numeral; a digit is needed before or after the point. -/
def unsigned? (cs : List Char) : Option Decimal :=
  let whole := cs.takeWhile isDigit
  let rest := cs.dropWhile isDigit
  let (fraction, tail) := match rest with
    | '.' :: r => (r.takeWhile isDigit, r.dropWhile isDigit)
    | r => ([], r)
  if whole = [] ∧ fraction = [] then none
  else (exponent? tail).map fun e => ⟨valueOf (whole ++ fraction), e - fraction.length⟩

/-- Lower case of the ASCII letters. -/
def lowerAscii (cs : List Char) : List Char := cs.map Char.toLower

/-- A double with an optional sign. -/
def double? (cs : List Char) : Option Float :=
  let (negative, body) := splitSign cs
  let word := lowerAscii body
  if word = "nan".toList then some (0.0 / 0.0)
  else if word = "inf".toList ∨ word = "infinity".toList then
    some (if negative then -1.0 / 0.0 else 1.0 / 0.0)
  else (unsigned? body).map (toDouble negative)

end Decimal
end Crunch
