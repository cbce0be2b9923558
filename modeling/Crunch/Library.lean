import Crunch.Library.Convert
import Crunch.Library.Encode
import Crunch.Library.Math
import Crunch.Library.Text

/-!
# Crunch.Library

The functions that only depend on their arguments.

* `Builtin.compute`: the result for some arguments. Functions that depend on more than their
  arguments, `random`, `input` and `print`, are not among them.
-/

namespace Crunch

open Library in
/-- The result of a function. -/
def Builtin.compute (b : Builtin) (args : List Value) : Except Fault.Cause Value :=
  match b, args with
  | .abs, [v] => Library.abs v
  | .min, vs => extremum .min .lt vs
  | .max, vs => extremum .max .gt vs
  | .clamp, [v, low, high] => Library.clamp v low high
  | .round, [v] => Library.round v 0
  | .round, [v, digits] => do Library.round v (← decimals digits)
  | .floor, [v] => byComponent Float.floor v
  | .ceil, [v] => byComponent Float.ceil v
  | .sqrt, [v] => Library.sqrt v
  | .exp, [v] => byKind Float.exp Imaginary.exp v
  | .log, [v] => logarithm Float.log Imaginary.ln v
  | .log10, [v] => logarithm Float.log10 Imaginary.log10 v
  | .sin, [v] => byKind Float.sin Imaginary.sin v
  | .cos, [v] => byKind Float.cos Imaginary.cos v
  | .tan, [v] => byKind Float.tan Imaginary.tan v
  | .sinh, [v] => byKind Float.sinh Imaginary.sinh v
  | .cosh, [v] => byKind Float.cosh Imaginary.cosh v
  | .tanh, [v] => byKind Float.tanh Imaginary.tanh v
  | .asin, [v] => inverse "asin" Float.asin v
  | .acos, [v] => inverse "acos" Float.acos v
  | .atan, [v] => v.numeric?.map fun x => .numeric x.atan
  | .pow, [v, w] => Operation.power v w
  | .imag, [x, y] => Library.imag x y
  | .re, [v] => v.imaginary?.map fun z => .numeric z.re
  | .im, [v] => v.imaginary?.map fun z => .numeric z.im
  | .hex, [v] => Library.hex v none
  | .hex, [v, width] => Library.hex v (some width)
  | .hash, [v] => Library.hash v none
  | .hash, [v, bound] => Library.hash v (some bound)
  | .b64enc, [v] => base64Encode v
  | .b64dec, [v] => base64Decode v
  | .bytes, [v] => toBytes v
  | .trim, [v] => onText Text.trim v
  | .ltrim, [v] => onText Text.trimLeft v
  | .rtrim, [v] => onText Text.trimRight v
  | .upper, [v] => onText Text.upper v
  | .lower, [v] => onText Text.lower v
  | .substr, [v, i] => substring v i none
  | .substr, [v, i, n] => substring v i (some n)
  | .rsubstr, [v, n] => lastPart v n
  | .chr, [v] => ofCode v
  | .bool, [v] => toBoolean v
  | .num, [v] => toNumeric v
  | .int, [v] => toInteger v
  | .str, [v] => .ok (.literal v.text)
  | .isnull, [v] => .ok (.boolean v.isNull)
  | .typeof, [v] => .ok (.literal v.type.text)
  | .tup, vs => .ok (Row.ofValues vs).value
  | .tab, [n, init] => table n init
  | .assert, [v] => do
    if ← v.condition then return .boolean true else .error .assertionFailed
  | b, _ => .error (.argumentCount b.name)

end Crunch
