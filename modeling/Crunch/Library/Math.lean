import Crunch.Builtin
import Crunch.Operation.Comparison
import Crunch.Operation.Power
import Crunch.Value.Coerce

/-!
# Crunch.Library.Math

Functions of numbers.

Most have a real and an imaginary form and take the one of their argument. Square roots and
logarithms of negative reals are imaginary.
-/

namespace Crunch
namespace Library

/-- A function with a real and an imaginary form. -/
def byKind (real : Float → Float) (complex : Imaginary → Imaginary) (v : Value) :
    Except Fault.Cause Value :=
  match v with
  | .imaginary z => .ok (.imaginary (complex z))
  | v => v.numeric?.map fun x => .numeric (real x)

/-- A function applied to both components of an imaginary. -/
def byComponent (f : Float → Float) : Value → Except Fault.Cause Value := byKind f (Imaginary.map f)

def abs (v : Value) : Except Fault.Cause Value :=
  match v with
  | .integer n => .ok (.integer (if n < 0 then -n else n))
  | .imaginary z => .ok (.numeric z.norm)
  | v => v.numeric?.map fun x => .numeric x.abs

/-- The first of the values that no later one beats. -/
def best (pick : Ordering) (v : Value) : List Value → Except Fault.Cause Value
  | [] => .ok v
  | w :: ws =>
    match Operation.order w v with
    | .error c => .error c
    | .ok o => best pick (if o = pick then w else v) ws

/-- The smallest or greatest of some values, at their common type. -/
def extremum (b : Builtin) (pick : Ordering) (vs : List Value) : Except Fault.Cause Value :=
  match vs with
  | [] => .error (.argumentCount b.name)
  | v :: ws =>
    match best pick v ws with
    | .error c => .error c
    | .ok w => w.coerce (b.result (vs.map Value.type))

/-- The nearest value between two bounds, at the common type of all three. -/
def clamp (v low high : Value) : Except Fault.Cause Value := do
  let t := Builtin.clamp.result [v.type, low.type, high.type]
  let between ← Operation.order low high
  if between = .gt then .error (.outOfRange (.clampBounds low.text high.text))
  else
    let below ← Operation.order v low
    if below = .lt then low.coerce t
    else
      let above ← Operation.order v high
      if above = .gt then high.coerce t else v.coerce t

/-- The number of decimals, which fits 32 bits. -/
def decimals (v : Value) : Except Fault.Cause Int := do
  let n ← v.integer?
  if Int32.minValue.toInt ≤ n.toInt ∧ n.toInt ≤ Int32.maxValue.toInt then return n.toInt else .error (.outOfRange (.decimals n))

/-- Rounds half up to some decimals; integers stay as they are. -/
def round (v : Value) (digits : Int) : Except Fault.Cause Value :=
  let scale := Double.power 10.0 digits
  match v with
  | .integer n => .ok (.integer n)
  | v => byComponent (Double.roundAt · scale) v

def sqrt (v : Value) : Except Fault.Cause Value :=
  match v with
  | .imaginary z => .ok (.imaginary z.sqrt)
  | v => v.numeric?.map fun x =>
    if x < 0.0 then .imaginary ⟨0.0, (-x).sqrt⟩ else .numeric x.sqrt

/-- A logarithm with its real and its imaginary form. -/
def logarithm (real : Float → Float) (complex : Imaginary → Imaginary) (v : Value) :
    Except Fault.Cause Value :=
  let principal (z : Imaginary) : Except Fault.Cause Value :=
    if z.isZero then .error (.outOfRange .logarithmOfZero) else .ok (.imaginary (complex z))
  match v with
  | .imaginary z => principal z
  | v => do
    let x ← v.numeric?
    if x > 0.0 then return .numeric (real x) else principal (.ofReal x)

/-- An inverse function of numbers from -1 to 1. -/
def inverse (name : String) (f : Float → Float) (v : Value) : Except Fault.Cause Value := do
  let x ← v.numeric?
  if -1.0 ≤ x && x ≤ 1.0 then return .numeric (f x)
  else .error (.outOfRange (.inverseFunction name x))

/-- An imaginary from its components. -/
def imag (re im : Value) : Except Fault.Cause Value := do
  let x ← re.numeric?
  let y ← im.numeric?
  return .imaginary ⟨x, y⟩

end Library
end Crunch
