import Crunch.Double.Exact

/-!
# Crunch.Decimal.Shortest

The fewest decimal digits that read back as a given double.

* `Decimal`: a natural coefficient times a power of ten.
* `Interval`: the reals that round to a double, its ends included when the significand is even.
* `shortest`: the first of the decimal grids of 1, 2, … 17 digits that has a point in the interval;
  of two such points the nearer one, an exact tie goes up.
-/

namespace Crunch

/-- The number `coefficient * 10 ^ exponent`. -/
structure Decimal where
  coefficient : Nat
  exponent : Int
deriving Repr, DecidableEq

namespace Decimal

/-- The reals from `low` to `high` around `mid`, all three in units of `2 ^ exponent`. -/
structure Interval where
  low : Nat
  mid : Nat
  high : Nat
  exponent : Int
  closed : Bool

/-- The reals that round to `m * 2 ^ e`. Below a power of two the neighbour is twice as near, but
for the smallest exponent. -/
def Interval.around (m : Nat) (e : Int) : Interval :=
  let low := if m = Nat.pow 2 52 ∧ e > -1074 then 4 * m - 1 else 4 * m - 2
  ⟨low, 4 * m, 4 * m + 2, e - 2, m % 2 = 0⟩

/-- Numerator and denominator of `n * 2 ^ e / 10 ^ k`. -/
def onGrid (n : Nat) (e k : Int) : Nat × Nat :=
  let num := n * Nat.pow 2 e.toNat * Nat.pow 10 (-k).toNat
  let den := Nat.pow 2 (-e).toNat * Nat.pow 10 k.toNat
  (num, den)

/-- The least `k` with `n * 2 ^ e < 10 ^ k`, searched upward from below. -/
def magnitudeFrom (n : Nat) (e : Int) : Nat → Int → Int
  | 0, k => k
  | fuel + 1, k =>
    let (num, den) := onGrid n e k
    if num < den then k else magnitudeFrom n e fuel (k + 1)

/-- The least `k` with `n * 2 ^ e < 10 ^ k`. -/
def magnitude (n : Nat) (e : Int) : Int :=
  let bits : Int := Nat.log2 n + e
  magnitudeFrom n e 8 (bits * 30103 / 100000 - 2)

/-- Whether `c * 10 ^ k` lies in the interval. -/
def Interval.contains (i : Interval) (c : Nat) (k : Int) : Bool :=
  let (low, den) := onGrid i.low i.exponent k
  let (high, _) := onGrid i.high i.exponent k
  let p := c * den
  if i.closed then low ≤ p && p ≤ high else low < p && p < high

/-- The point of the grid `10 ^ k` nearest to the middle among those in the interval. -/
def Interval.pick? (i : Interval) (k : Int) : Option Nat :=
  let (num, den) := onGrid i.mid i.exponent k
  let c := num / den
  match i.contains c k, i.contains (c + 1) k with
  | true, true => if 2 * (num % den) < den then some c else some (c + 1)
  | true, false => some c
  | false, true => some (c + 1)
  | false, false => none

/-- The first hit on the grids of `digits`, `digits + 1`, … digits. -/
def Interval.search (i : Interval) (k : Int) : Nat → Nat → Decimal
  | 0, digits => ⟨(onGrid i.mid i.exponent (k - digits)).1, k - digits⟩
  | fuel + 1, digits =>
    match i.pick? (k - digits) with
    | some c => ⟨c, k - digits⟩
    | none => i.search k fuel (digits + 1)

/-- A coefficient of ten has one digit at the next power. -/
def normal (d : Decimal) : Decimal :=
  if d.coefficient = 10 then ⟨1, d.exponent + 1⟩ else d

/-- The shortest decimal that reads back as `m * 2 ^ e`, for `m > 0`. -/
def shortest (m : Nat) (e : Int) : Decimal :=
  let i := Interval.around m e
  (i.search (magnitude i.mid i.exponent) 17 1).normal

end Decimal
end Crunch
