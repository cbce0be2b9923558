import Crunch.Decimal.Shortest

/-!
# Crunch.Decimal.Numeral

Written forms of doubles, all with the shortest digits that read back.

* `positional`: digits around a decimal point, however long; no point for a whole number.
* `scientific`: one digit before the point and a power of ten.
* `numeral`: the form in which scripts see numerics. It always reads as a numeric: whole numbers
  keep one zero after the point, and the scientific form is used below `1e-7` and from `1e15` on.
-/

namespace Crunch
namespace Decimal

/-- Decimal digits of a natural, at least one. -/
def digits (n : Nat) : List Char := Nat.toDigits 10 n

/-- Digits around the point, without an exponent. -/
def positionalDigits (d : Decimal) : List Char :=
  let ds := digits d.coefficient
  if d.exponent ≥ 0 then ds ++ List.replicate d.exponent.toNat '0'
  else
    let places := (-d.exponent).toNat
    if places < ds.length then ds.take (ds.length - places) ++ '.' :: ds.drop (ds.length - places)
    else '0' :: '.' :: List.replicate (places - ds.length) '0' ++ ds

/-- One digit, the further ones after a point, and the exponent after an `e`. -/
def scientificDigits (d : Decimal) : List Char :=
  let ds := digits d.coefficient
  let exponent : Int := d.exponent + (ds.length - 1 : Nat)
  let point := if ds.length > 1 then '.' :: ds.drop 1 else []
  ds.take 1 ++ point ++ 'e' :: (toString exponent).toList

/-- A sign for negative doubles, also for the negative zero. -/
def signed (x : Float) (magnitude : List Char) : String :=
  String.ofList (if Double.isNegative x then '-' :: magnitude else magnitude)

/-- Text of the doubles that are no numbers. -/
def special (x : Float) : String :=
  if x.isNaN then "NaN" else signed x "inf".toList

/-- The shortest decimal of a finite double's magnitude; zero is `0`. -/
def ofDouble (x : Float) : Decimal :=
  let a := Double.toDyadic x
  if a.significand = 0 then ⟨0, 0⟩ else shortest a.significand a.exponent

/-- Shortest digits, never an exponent. -/
def positional (x : Float) : String :=
  if !x.isFinite then special x else signed x (positionalDigits (ofDouble x))

/-- Shortest digits with an exponent. -/
def scientific (x : Float) : String :=
  if !x.isFinite then special x else signed x (scientificDigits (ofDouble x))

/-- Whether a finite double is a whole number. -/
def isWhole (x : Float) : Bool := x.floor == x

/-- The text of a numeric. -/
def numeral (x : Float) : String :=
  if !x.isFinite then special x
  else
    let m := x.abs
    if m != 0.0 && !(Double.ofRatio false 1 (Nat.pow 10 7) ≤ m && m < Double.ofRatio false (Nat.pow 10 15) 1) then
      scientific x
    else if isWhole x then positional x ++ ".0"
    else positional x

end Decimal
end Crunch
