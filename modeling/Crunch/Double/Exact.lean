/-!
# Crunch.Double.Exact

Doubles as exact dyadic numbers.

* `Double.Dyadic`: a finite double as sign, significand and binary exponent.
* `Double.ofRatio`: the double nearest to a quotient of naturals, a tie to the even neighbour.
* `Double.mulAdd`: `x * y + z` with one rounding.
* `Double.remainder`: the exact remainder of a division truncated toward zero.
* `Double.truncate?`: the integer part.
* `Double.totalOrder`: the order in which the two zeros are equal and NaN is the greatest.

Each of them decodes to naturals, computes there without error and rounds once.
-/

namespace Crunch
namespace Double

/-- The number `(-1) ^ negative * significand * 2 ^ exponent`. -/
structure Dyadic where
  negative : Bool
  significand : Nat
  exponent : Int
deriving Repr

/-- Sign bit of a double, also of a zero. -/
def isNegative (x : Float) : Bool := x.toBits >>> 63 == 1

/-- The value of a finite double; the fields of the others are meaningless. -/
def toDyadic (x : Float) : Dyadic :=
  let bits : Nat := x.toBits.toNat
  let field : Nat := bits / Nat.pow 2 52 % Nat.pow 2 11
  let fraction : Nat := bits % Nat.pow 2 52
  if field = 0 then ⟨isNegative x, fraction, -1074⟩
  else ⟨isNegative x, Nat.pow 2 52 + fraction, (field : Int) - 1075⟩

/-- Bits of positive infinity. -/
def infinityBits : Nat := 2047 * Nat.pow 2 52

/-- `n / d` rounded to the nearest natural, a tie to the even one. -/
def roundDiv (n d : Nat) : Nat :=
  let q := n / d
  let r := n % d
  if 2 * r > d ∨ (2 * r = d ∧ q % 2 = 1) then q + 1 else q

/-- `n * 2 ^ -e / d` as a fraction of naturals. -/
def scaled (n d : Nat) (e : Int) : Nat × Nat :=
  if e ≥ 0 then (n, d * Nat.pow 2 e.toNat) else (n * Nat.pow 2 (-e).toNat, d)

/-- Bits of the non-negative double nearest to `n / d`. The unit in the last place `2 ^ e` is the
one that leaves 53 significant bits, or the smallest there is; a carry out of the significand
moves into the exponent field by itself. -/
def magnitudeBits (n d : Nat) : Nat :=
  if n = 0 then 0 else
  let e₀ : Int := (Nat.log2 n : Int) - Nat.log2 d - 53
  let (n₀, d₀) := scaled n d e₀
  let e₁ := if n₀ / d₀ < Nat.pow 2 53 then e₀ else e₀ + 1
  let e := max e₁ (-1074)
  let (n₁, d₁) := scaled n d e
  let m := roundDiv n₁ d₁
  min ((e + 1074).toNat * Nat.pow 2 52 + m) infinityBits

/-- The double nearest to `(-1) ^ negative * n / d`, infinite beyond the largest one. -/
def ofRatio (negative : Bool) (n d : Nat) : Float :=
  Float.ofBits (UInt64.ofNat (magnitudeBits n d + if negative then Nat.pow 2 63 else 0))

/-- The double nearest to `(-1) ^ negative * m * 2 ^ e`. -/
def ofScaled (negative : Bool) (m : Nat) (e : Int) : Float :=
  if e ≥ 0 then ofRatio negative (m * Nat.pow 2 e.toNat) 1 else ofRatio negative m (Nat.pow 2 (-e).toNat)

/-- The signed significand of a dyadic number at a smaller exponent. -/
def Dyadic.at (a : Dyadic) (e : Int) : Int :=
  let m : Int := a.significand * Nat.pow 2 (a.exponent - e).toNat
  if a.negative then -m else m

/-- `x * y + z` rounded once. An exact zero is negative only when both terms are. -/
def mulAdd (x y z : Float) : Float :=
  if !x.isFinite || !y.isFinite then x * y + z
  else if !z.isFinite then z
  else
    let a := toDyadic x
    let b := toDyadic y
    let c := toDyadic z
    let p : Dyadic := ⟨a.negative != b.negative, a.significand * b.significand, a.exponent + b.exponent⟩
    let e := min p.exponent c.exponent
    let s := p.at e + c.at e
    if s = 0 then (if p.negative && c.negative then -0.0 else 0.0)
    else ofScaled (s < 0) s.natAbs e

/-- `x - y * q` for the quotient `q` truncated toward zero; it is exact and has the sign of `x`. -/
def remainder (x y : Float) : Float :=
  if x.isNaN || y.isNaN || x.isInf || y == 0.0 then 0.0 / 0.0
  else if y.isInf then x
  else
    let a := toDyadic x
    let b := toDyadic y
    let e := min a.exponent b.exponent
    ofScaled a.negative ((a.at e).natAbs % (b.at e).natAbs) e

/-- The integer part of a finite double. -/
def truncate? (x : Float) : Option Int :=
  if !x.isFinite then none
  else
    let a := toDyadic x
    let m := if a.exponent ≥ 0 then a.significand * Nat.pow 2 a.exponent.toNat
      else a.significand / Nat.pow 2 (-a.exponent).toNat
    some (if a.negative then -(m : Int) else m)

/-- Zeros are equal, NaN equals itself and is above all others. -/
def totalOrder (x y : Float) : Ordering :=
  match x.isNaN, y.isNaN with
  | true, true => .eq
  | true, false => .gt
  | false, true => .lt
  | false, false => if x < y then .lt else if y < x then .gt else .eq

/-- Equality under `totalOrder`. -/
def same (x y : Float) : Bool := totalOrder x y == .eq

/-- The magnitude of `x` with the sign of `y`. -/
def withSign (x y : Float) : Float :=
  Float.ofBits (UInt64.ofNat (x.toBits.toNat % Nat.pow 2 63 + if isNegative y then Nat.pow 2 63 else 0))

end Double
end Crunch
