import Crunch.Double.Exact

/-!
# Crunch.Double.Function

Functions of doubles that are fixed sequences of rounded operations.

* `Double.power`: a whole power by repeated squaring.
* `Double.midpoint`: the mean of two doubles without overflow.
* `Double.hypot`: the length of a right triangle's long side, corrected once after the root.
* `Double.roundAt`: a number rounded half up at a scale.
-/

namespace Crunch
namespace Double

/-- Bits of the exponent from the lowest: square the base for each, multiply for the set ones. -/
def squarings : Nat → Nat → Float → Float → Float
  | 0, _, _, acc => acc
  | fuel + 1, n, base, acc =>
    let acc := if n % 2 = 1 then acc * base else acc
    if n / 2 = 0 then acc else squarings fuel (n / 2) (base * base) acc

/-- `x ^ n`; a negative power is the reciprocal of the positive one. -/
def power (x : Float) (n : Int) : Float :=
  let p := squarings (n.natAbs + 1) n.natAbs x 1.0
  if n < 0 then 1.0 / p else p

/-- `(x + y) / 2`, halved before adding where the sum could overflow. -/
def midpoint (x y : Float) : Float :=
  let small := ofScaled false 1 (-1021)
  let large := ofScaled false (Nat.pow 2 53 - 1) 970
  if x.abs ≤ large && y.abs ≤ large then (x + y) / 2.0
  else if x.abs < small then x + y / 2.0
  else if y.abs < small then x / 2.0 + y
  else x / 2.0 + y / 2.0

/-- The root of `x * x + y * y` for `x ≥ y ≥ 0` of moderate size, with one correction step. -/
def hypotCore (x y : Float) : Float :=
  let h := (x * x + y * y).sqrt
  let correction :=
    if h ≤ 2.0 * y then
      let delta := h - y
      x * (2.0 * delta - x) + (delta - 2.0 * (x - y)) * delta
    else
      let delta := h - x
      2.0 * delta * (x - 2.0 * y) + ((4.0 * delta - y) * y + delta * delta)
  h - correction / (2.0 * h)

/-- The length of the vector `(x, y)`. Huge and tiny vectors are scaled into range first, and a
side too short to be felt is only added. -/
def hypot (x y : Float) : Float :=
  if x.isInf || y.isInf then 1.0 / 0.0
  else if x.isNaN || y.isNaN then x + y
  else
    let a := if x.abs < y.abs then y.abs else x.abs
    let b := if x.abs < y.abs then x.abs else y.abs
    let scale := ofScaled false 1 (-600)
    let tiny := ofScaled false 1 (-54)
    if a > ofScaled false 1 511 then
      if b ≤ a * tiny then a + b else hypotCore (a * scale) (b * scale) / scale
    else if b < ofScaled false 1 (-459) then
      if a ≥ b / tiny then a + b else hypotCore (a / scale) (b / scale) * scale
    else if b ≤ a * tiny then a + b
    else hypotCore a b

/-- `x` rounded half up to a multiple of `1 / scale`. -/
def roundAt (x scale : Float) : Float := (mulAdd x scale 0.5).floor / scale

end Double
end Crunch
