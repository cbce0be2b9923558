import Crunch.Fault
import Crunch.Imaginary
import Crunch.Program
import Crunch.Text.Quoted
import Crunch.Text.Utf8
import Crunch.Token

/-!
# Crunch.Value

Values of a running script.

* `Value`: nulls of every type, scalars, tuples, collections and references to native objects.
* `Value.type`: the type of a value.
* `Value.text`: its text; literals inside tuples and collections are quoted.
* `Value.same`: equality of structure, types of nulls and elements included.
* `Value.boolean?` and so on: the payload of one kind, or why there is none.
* `Value.condition`: the value as a condition, for which a null is false.
-/

namespace Crunch

inductive Value where
  /-- A null of some type; the untyped one is `null` in a script. -/
  | null (t : Ty)
  | boolean (b : Bool)
  | integer (n : Int64)
  | numeric (x : Float)
  | imaginary (z : Imaginary)
  | literal (s : String)
  | tabchar (bytes : List UInt8)
  /-- Fields, and the types that they were declared with. -/
  | tuple (fields : List Value) (declared : List Ty)
  /-- Elements of one declared type. -/
  | collection (element : Ty) (items : List Value)
  /-- A reference to an object of a native type. -/
  | object (native : String) (id : Nat)
deriving Repr

instance : Inhabited Value := ⟨.null Ty.untyped⟩

namespace Value

/-- The value of a constant. -/
def ofConstant : Constant → Value
  | .null => .null Ty.untyped
  | .boolean b => .boolean b
  | .integer n => .integer n
  | .numeric x => .numeric x
  | .imaginary x => .imaginary ⟨0.0, x⟩
  | .literal s => .literal s

def isNull : Value → Bool
  | .null _ => true
  | _ => false

/-- The type of a value. -/
def type : Value → Ty
  | .null t => t
  | .boolean _ => Ty.boolean
  | .integer _ => Ty.integer
  | .numeric _ => Ty.numeric
  | .imaginary _ => Ty.imaginary
  | .literal _ => Ty.literal
  | .tabchar _ => Ty.tabchar
  | .tuple _ declared => Ty.tuple declared
  | .collection element _ => element.arrayOf
  | .object native _ => Ty.object native

/-- The text of a value inside a tuple or collection, where literals are quoted. -/
def nestedText (v : Value) (plain : String) : String :=
  match v with
  | .literal s => Text.quoted s
  | _ => plain

mutual

/-- The text of a value. -/
def text : Value → String
  | .null _ => "null"
  | .boolean b => boolText b
  | .integer n => integerText n
  | .numeric x => Decimal.numeral x
  | .imaginary z => z.text
  | .literal s => s
  | .tabchar bytes => Utf8.decodeLossy bytes
  | .tuple fields _ => "(" ++ ", ".intercalate (texts fields) ++ ")"
  | .collection _ items => "[" ++ ", ".intercalate (texts items) ++ "]"
  | .object name _ => "<" ++ name ++ ">"

/-- The texts of values inside a tuple or collection. -/
def texts : List Value → List String
  | [] => []
  | v :: vs => nestedText v (text v) :: texts vs

end

mutual

/-- Equality of structure. Numerics compare as numbers, so NaN differs from itself; objects are
equal when they are one object. -/
def same : Value → Value → Bool
  | .null t, .null t' => t == t'
  | .boolean b, .boolean b' => b == b'
  | .integer n, .integer n' => n == n'
  | .numeric x, .numeric x' => x == x'
  | .imaginary z, .imaginary z' => z.same z'
  | .literal s, .literal s' => s == s'
  | .tabchar bs, .tabchar bs' => bs == bs'
  | .tuple fs ts, .tuple fs' ts' => sameAll fs fs' && ts == ts'
  | .collection e vs, .collection e' vs' => e == e' && sameAll vs vs'
  | .object _ id, .object _ id' => id == id'
  | _, _ => false

/-- Equality of structure, element by element. -/
def sameAll : List Value → List Value → Bool
  | [], [] => true
  | v :: vs, v' :: vs' => same v v' && sameAll vs vs'
  | _, _ => false

end

/-- The error for a value that is not of the kind needed. -/
def mismatch (v : Value) (what : String) : Fault.Cause :=
  if v.isNull then .nullValue else .mismatch (.expected what v.type)

def boolean? : Value → Except Fault.Cause Bool
  | .boolean b => .ok b
  | v => .error (v.mismatch "boolean")

def integer? : Value → Except Fault.Cause Int64
  | .integer n => .ok n
  | v => .error (v.mismatch "integer")

/-- A numeric, or an integer as a numeric. -/
def numeric? : Value → Except Fault.Cause Float
  | .integer n => .ok n.toFloat
  | .numeric x => .ok x
  | v => .error (v.mismatch "numeric")

/-- An imaginary, or a real number as one. -/
def imaginary? : Value → Except Fault.Cause Imaginary
  | .imaginary z => .ok z
  | .integer n => .ok (.ofReal n.toFloat)
  | .numeric x => .ok (.ofReal x)
  | v => .error (v.mismatch "imaginary")

def literal? : Value → Except Fault.Cause String
  | .literal s => .ok s
  | v => .error (v.mismatch "literal")

def tabchar? : Value → Except Fault.Cause (List UInt8)
  | .tabchar bytes => .ok bytes
  | v => .error (v.mismatch "tabchar")

/-- An object, by its number. -/
def object? : Value → Except Fault.Cause Nat
  | .object _ id => .ok id
  | v => .error (v.mismatch "object")

/-- Whether the value lets a branch or a loop go on. Only booleans and their nulls tell. -/
def condition : Value → Except Fault.Cause Bool
  | .boolean b => .ok b
  | .null t =>
    if t.isUntyped || t.isScalar .boolean then .ok false else .error .nullValue
  | v => .error (v.mismatch "boolean")

/-- The null that stays behind when a value is moved away. -/
def emptied (v : Value) : Value := .null v.type

mutual

/-- The objects that a value refers to, one entry for each reference. -/
def references : Value → List Nat
  | .object _ id => [id]
  | .tuple fields _ => referencesAll fields
  | .collection _ items => referencesAll items
  | _ => []

/-- The objects that values refer to. -/
def referencesAll : List Value → List Nat
  | [] => []
  | v :: vs => references v ++ referencesAll vs

end

end Value
end Crunch
