import Crunch.Decimal.Numeral
import Crunch.Double.Function

/-!
# Crunch.Imaginary

Complex numbers with double components, the scalars of kind imaginary.

* Arithmetic: each component of a product or quotient is fused where a product meets a sum.
* Functions: principal branches, from the functions of the components.
* `Imaginary.text`: both components as numerals, the second with its sign and an `i`.
* `Imaginary.same`: equality in which the zeros are equal and NaN equals itself.
-/

namespace Crunch

structure Imaginary where
  re : Float
  im : Float
deriving DecidableEq, Repr

namespace Imaginary

/-- A real number. -/
def ofReal (x : Float) : Imaginary := ⟨x, 0.0⟩

/-- The sign of the imaginary component is also shown for a zero. -/
def text (z : Imaginary) : String :=
  let sign := if Double.isNegative z.im then "-" else "+"
  Decimal.numeral z.re ++ sign ++ Decimal.numeral z.im.abs ++ "i"

/-- Equality by component. -/
def same (z w : Imaginary) : Bool := Double.same z.re w.re && Double.same z.im w.im

/-- Distance from zero. -/
def norm (z : Imaginary) : Float := Double.hypot z.re z.im

/-- Angle in radians. -/
def arg (z : Imaginary) : Float := Float.atan2 z.im z.re

def isZero (z : Imaginary) : Bool := z.re == 0.0 && z.im == 0.0

/-- Applies a function to both components. -/
def map (f : Float → Float) (z : Imaginary) : Imaginary := ⟨f z.re, f z.im⟩

instance : Neg Imaginary := ⟨map (-·)⟩

instance : Add Imaginary := ⟨fun z w => ⟨z.re + w.re, z.im + w.im⟩⟩

instance : Sub Imaginary := ⟨fun z w => ⟨z.re - w.re, z.im - w.im⟩⟩

instance : Mul Imaginary :=
  ⟨fun z w =>
    ⟨Double.mulAdd z.re w.re (-(z.im * w.im)), Double.mulAdd z.re w.im (z.im * w.re)⟩⟩

instance : Div Imaginary :=
  ⟨fun z w =>
    let d := Double.mulAdd w.re w.re (w.im * w.im)
    ⟨Double.mulAdd z.re w.re (z.im * w.im) / d, Double.mulAdd z.im w.re (-(z.re * w.im)) / d⟩⟩

/-- Square root with a non-negative real component and the sign of the imaginary one. -/
def sqrt (z : Imaginary) : Imaginary :=
  let r := z.norm
  ⟨(Double.midpoint r z.re).sqrt, Double.withSign ((r - z.re) / 2.0).sqrt z.im⟩

def exp (z : Imaginary) : Imaginary :=
  let scale := z.re.exp
  ⟨scale * z.im.cos, scale * z.im.sin⟩

/-- Natural logarithm. -/
def ln (z : Imaginary) : Imaginary := ⟨z.norm.log, z.arg⟩

/-- The natural logarithm of ten. -/
def lnTen : Float := 2.302585092994046

/-- Decimal logarithm. -/
def log10 (z : Imaginary) : Imaginary := z.ln.map (· / lnTen)

/-- `z ^ w` for a base other than zero. -/
def power (z w : Imaginary) : Imaginary := (w * z.ln).exp

def sin (z : Imaginary) : Imaginary := ⟨z.re.sin * z.im.cosh, z.re.cos * z.im.sinh⟩

def cos (z : Imaginary) : Imaginary := ⟨z.re.cos * z.im.cosh, -(z.re.sin * z.im.sinh)⟩

def tan (z : Imaginary) : Imaginary := z.sin / z.cos

def sinh (z : Imaginary) : Imaginary := ⟨z.re.sinh * z.im.cos, z.re.cosh * z.im.sin⟩

def cosh (z : Imaginary) : Imaginary := ⟨z.re.cosh * z.im.cos, z.re.sinh * z.im.sin⟩

def tanh (z : Imaginary) : Imaginary := z.sinh / z.cosh

end Imaginary
end Crunch
