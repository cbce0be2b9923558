import Crunch.Token
import Crunch.Ty.Domain

/-!
# Crunch.Builtin

Signatures of the functions that every script can call.

* `Builtin`: the functions and their names.
* `Arity`, `Domain`: how many arguments a function takes and of which types.
* `Builtin.result`: the type of the result, from the types of the arguments.
* `Builtin.propagatesNull`: whether a null argument makes the result null without a call.
* `isReserved`: the names that variables cannot have.
-/

namespace Crunch

inductive Builtin where
  | abs | min | max | clamp | round | floor | ceil | sqrt | exp | log | log10
  | sin | cos | tan | sinh | cosh | tanh | asin | acos | atan
  | pow | random | imag | re | im
  | hex | hash | b64enc | b64dec | bytes
  | trim | ltrim | rtrim | upper | lower | substr | rsubstr | chr
  | bool | num | int | str | isnull | typeof | tup | tab
  | input | print | assert
deriving DecidableEq, Repr

/-- How many arguments a function takes. -/
inductive Arity where
  | exactly (n : Nat)
  | oneOf (ns : List Nat)
  | atLeast (n : Nat)
deriving DecidableEq, Repr

def Arity.admits : Arity → Nat → Bool
  | .exactly m, n => n == m
  | .oneOf ns, n => ns.contains n
  | .atLeast m, n => m ≤ n

/-- The types that an argument may have. The untyped null is in each of them. -/
inductive Domain where
  | any | number | numberOrImaginary | numberOrLiteral | integer | literal | literalOrBytes | literalOrInteger
  | boolean
  /-- A variable that holds a literal and is stored into. -/
  | literalVariable
deriving DecidableEq, Repr

def Domain.admits (d : Domain) (t : Ty) : Bool :=
  t.isUntyped ||
    match d with
    | .any => true
    | .number => t.isScalar .integer || t.isScalar .numeric
    | .numberOrImaginary => t.isNumber
    | .numberOrLiteral => t.isScalar .integer || t.isScalar .numeric || t.isScalar .literal
    | .integer => t.isScalar .integer
    | .literal | .literalVariable => t.isScalar .literal
    | .literalOrBytes => t.isScalar .literal || t.isScalar .tabchar
    | .literalOrInteger => t.isScalar .literal || t.isScalar .integer
    | .boolean => t.isScalar .boolean

/-- The words for a domain in messages. -/
def Domain.text : Domain → String
  | .any => "any value"
  | .number => "a number"
  | .numberOrImaginary => "a number or an imaginary"
  | .numberOrLiteral => "a number or a literal"
  | .integer => "an integer"
  | .literal => "a literal"
  | .literalOrBytes => "a literal or a tabchar"
  | .literalOrInteger => "a literal or an integer"
  | .boolean => "a boolean"
  | .literalVariable => "a literal variable"

/-- The common number type of all, numeric if there is none. -/
def Ty.promoteAll (ts : List Ty) : Ty :=
  (ts.foldl (fun t? t => t?.bind (Ty.promote? · t)) (some Ty.untyped)).getD Ty.numeric

namespace Builtin

def name : Builtin → String
  | .abs => "abs"
  | .min => "min"
  | .max => "max"
  | .clamp => "clamp"
  | .round => "round"
  | .floor => "floor"
  | .ceil => "ceil"
  | .sqrt => "sqrt"
  | .exp => "exp"
  | .log => "log"
  | .log10 => "log10"
  | .sin => "sin"
  | .cos => "cos"
  | .tan => "tan"
  | .sinh => "sinh"
  | .cosh => "cosh"
  | .tanh => "tanh"
  | .asin => "asin"
  | .acos => "acos"
  | .atan => "atan"
  | .pow => "pow"
  | .random => "random"
  | .imag => "imag"
  | .re => "re"
  | .im => "im"
  | .hex => "hex"
  | .hash => "hash"
  | .b64enc => "b64enc"
  | .b64dec => "b64dec"
  | .bytes => "bytes"
  | .trim => "trim"
  | .ltrim => "ltrim"
  | .rtrim => "rtrim"
  | .upper => "upper"
  | .lower => "lower"
  | .substr => "substr"
  | .rsubstr => "rsubstr"
  | .chr => "chr"
  | .bool => "bool"
  | .num => "num"
  | .int => "int"
  | .str => "str"
  | .isnull => "isnull"
  | .typeof => "typeof"
  | .tup => "tup"
  | .tab => "tab"
  | .input => "input"
  | .print => "print"
  | .assert => "assert"

/-- All functions. -/
def all : List Builtin :=
  [.abs, .min, .max, .clamp, .round, .floor, .ceil, .sqrt, .exp, .log, .log10, .sin, .cos, .tan,
   .sinh, .cosh, .tanh, .asin, .acos, .atan, .pow, .random, .imag, .re, .im, .hex, .hash, .b64enc,
   .b64dec, .bytes, .trim, .ltrim, .rtrim, .upper, .lower, .substr, .rsubstr, .chr, .bool, .num,
   .int, .str, .isnull, .typeof, .tup, .tab, .input, .print, .assert]

/-- The function with a name. -/
def ofName? (s : String) : Option Builtin := all.find? (·.name == s)

def arity : Builtin → Arity
  | .min | .max => .atLeast 2
  | .tup => .atLeast 1
  | .clamp => .exactly 3
  | .pow | .imag | .rsubstr | .tab => .exactly 2
  | .round | .hex | .hash => .oneOf [1, 2]
  | .substr => .oneOf [2, 3]
  | .random => .oneOf [0, 1]
  | _ => .exactly 1

/-- Domains of the arguments; the last one holds for all further arguments. -/
def domains : Builtin → List Domain
  | .abs | .floor | .ceil | .sqrt | .exp | .log | .log10 | .sin | .cos | .tan | .sinh | .cosh
  | .tanh | .pow | .re | .im => [.numberOrImaginary]
  | .min | .max => [.numberOrLiteral]
  | .clamp | .asin | .acos | .atan | .imag => [.number]
  | .round => [.numberOrImaginary, .integer]
  | .random | .hex | .chr => [.integer]
  | .hash => [.literalOrBytes, .integer]
  | .b64enc => [.literalOrBytes]
  | .b64dec | .trim | .ltrim | .rtrim | .upper | .lower => [.literal]
  | .bytes => [.literalOrInteger]
  | .substr | .rsubstr => [.literal, .integer]
  | .bool | .num | .int | .str | .isnull | .typeof | .tup | .print => [.any]
  | .tab => [.integer, .any]
  | .input => [.literalVariable]
  | .assert => [.boolean]

/-- The domain of the argument at an index. -/
def domain (b : Builtin) (index : Nat) : Domain :=
  (b.domains[index]?.or b.domains.getLast?).getD .any

/-- The type of the result for arguments of these types. -/
def result (b : Builtin) (args : List Ty) : Ty :=
  let first := args.headD Ty.untyped
  match b with
  | .abs => if first.isScalar .imaginary then Ty.numeric else first
  | .min | .max => if args.any (·.isScalar .literal) then Ty.literal else Ty.promoteAll args
  | .clamp | .pow => Ty.promoteAll args
  | .round => if first.isScalar .integer || first.isScalar .imaginary then first else Ty.numeric
  | .floor | .ceil | .sqrt | .exp | .log | .log10 | .sin | .cos | .tan | .sinh | .cosh | .tanh =>
    if first.isScalar .imaginary then Ty.imaginary else Ty.numeric
  | .asin | .acos | .atan | .re | .im | .num => Ty.numeric
  | .random => if args.isEmpty then Ty.numeric else Ty.integer
  | .imag => Ty.imaginary
  | .hex | .b64enc | .trim | .ltrim | .rtrim | .upper | .lower | .substr | .rsubstr | .chr | .str
  | .typeof => Ty.literal
  | .hash | .int => Ty.integer
  | .b64dec | .bytes => Ty.tabchar
  | .bool | .isnull | .input | .assert => Ty.boolean
  | .tup => Ty.tuple args
  | .tab => (args.getD 1 Ty.untyped).arrayOf
  | .print => first

/-- Whether a null argument makes the result null. The other functions see nulls as they are. -/
def propagatesNull : Builtin → Bool
  | .isnull | .typeof | .tup | .tab | .input | .print | .assert => false
  | _ => true

end Builtin

/-- Names that variables cannot have: words of the language and functions. -/
def isReserved (name : String) : Bool :=
  Token.ofWord name != .identifier name || (Builtin.ofName? name).isSome

end Crunch
