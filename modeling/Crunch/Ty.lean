/-!
# Crunch.Ty

Types of values.

* `Kind`: the major kinds.
* `Ty`: a kind, a nesting level of collections, and the fields of a tuple or the name of an object.
* `Ty.accepts`: whether a value of one type may be stored in a slot of another.
* `Ty.text`: the name of a type as scripts see it.

A collection of integers is an integer type of level one. The type of an untyped null has the kind
`noType`; so do collections that hold only untyped nulls.
-/

namespace Crunch

inductive Kind where
  | noType | boolean | integer | numeric | imaginary | literal | tabchar | object | tuple
deriving DecidableEq, Repr

inductive Ty where
  /-- A kind without further structure. -/
  | plain (kind : Kind) (level : Nat)
  /-- With the types of the fields of a tuple. -/
  | row (kind : Kind) (level : Nat) (fields : List Ty)
  /-- With the name of a native type. -/
  | named (kind : Kind) (level : Nat) (name : String)
deriving Repr

instance : Inhabited Ty := ⟨.plain .noType 0⟩

mutual

def Ty.decEq : (a b : Ty) → Decidable (a = b)
  | .plain k l, .plain k' l' =>
    if h : k = k' ∧ l = l' then isTrue (by simp [h]) else isFalse (by simpa using h)
  | .named k l n, .named k' l' n' =>
    if h : k = k' ∧ l = l' ∧ n = n' then isTrue (by simp [h]) else isFalse (by simpa using h)
  | .row k l fs, .row k' l' fs' =>
    match Ty.listDecEq fs fs' with
    | isTrue hf =>
      if h : k = k' ∧ l = l' then isTrue (by simp [h, hf])
      else isFalse fun e => h ⟨(Ty.row.inj e).1, (Ty.row.inj e).2.1⟩
    | isFalse hf => isFalse fun e => hf (Ty.row.inj e).2.2
  | .plain .., .row .. => isFalse nofun
  | .plain .., .named .. => isFalse nofun
  | .row .., .plain .. => isFalse nofun
  | .row .., .named .. => isFalse nofun
  | .named .., .plain .. => isFalse nofun
  | .named .., .row .. => isFalse nofun

def Ty.listDecEq : (as bs : List Ty) → Decidable (as = bs)
  | [], [] => isTrue rfl
  | [], _ :: _ => isFalse nofun
  | _ :: _, [] => isFalse nofun
  | a :: as, b :: bs =>
    match Ty.decEq a b, Ty.listDecEq as bs with
    | isTrue h, isTrue hs => isTrue (h ▸ hs ▸ rfl)
    | isFalse h, _ => isFalse fun e => h (List.cons.inj e).1
    | _, isFalse hs => isFalse fun e => hs (List.cons.inj e).2

end

instance : DecidableEq Ty := Ty.decEq

/-- The word for a kind. -/
def Kind.text : Kind → String
  | .noType => "null"
  | .boolean => "boolean"
  | .integer => "integer"
  | .numeric => "numeric"
  | .imaginary => "imaginary"
  | .literal => "literal"
  | .tabchar => "tabchar"
  | .object => "object"
  | .tuple => "tuple"

/-- All kinds. -/
def Kind.all : List Kind :=
  [.noType, .boolean, .integer, .numeric, .imaginary, .literal, .tabchar, .object, .tuple]

/-- The kinds of numbers. -/
def Kind.isNumber : Kind → Bool
  | .integer | .numeric | .imaginary => true
  | _ => false

namespace Ty

def kind : Ty → Kind
  | .plain k _ => k
  | .row k _ _ => k
  | .named k _ _ => k

/-- How deeply collections are nested. -/
def level : Ty → Nat
  | .plain _ l => l
  | .row _ l _ => l
  | .named _ l _ => l

/-- The same type at another level. -/
def withLevel (l : Nat) : Ty → Ty
  | .plain k _ => .plain k l
  | .row k _ fs => .row k l fs
  | .named k _ n => .named k l n

/-- A value that is no collection, tuple or object. -/
abbrev scalar (k : Kind) : Ty := .plain k 0

/-- The type of an untyped null. -/
abbrev untyped : Ty := scalar .noType
abbrev boolean : Ty := scalar .boolean
abbrev integer : Ty := scalar .integer
abbrev numeric : Ty := scalar .numeric
abbrev imaginary : Ty := scalar .imaginary
abbrev literal : Ty := scalar .literal
abbrev tabchar : Ty := scalar .tabchar

/-- Tuples with fields of these types. -/
abbrev tuple (fields : List Ty) : Ty := .row .tuple 0 fields

/-- Objects of a native type. -/
abbrev object (name : String) : Ty := .named .object 0 name

/-- Collections whose elements have this type. -/
def arrayOf (t : Ty) : Ty := t.withLevel (t.level + 1)

/-- The type of the elements, if this is a collection type. -/
def element? (t : Ty) : Option Ty := if t.level > 0 then some (t.withLevel (t.level - 1)) else none

/-- The type of an untyped null. -/
def isUntyped (t : Ty) : Bool := t.kind == .noType && t.level == 0

def isCollection (t : Ty) : Bool := t.level > 0

/-- A value of this kind outside any collection. -/
def isScalar (k : Kind) (t : Ty) : Bool := t.level == 0 && t.kind == k

/-- A number outside any collection. -/
def isNumber (t : Ty) : Bool := t.level == 0 && t.kind.isNumber

/-- The types of the fields, if this is a tuple type. -/
def fields? : Ty → Option (List Ty)
  | .row _ 0 fs => some fs
  | _ => none

/-- The name of the native type, if this is an object type. -/
def objectName? : Ty → Option String
  | .named _ 0 n => some n
  | _ => none

/-- Whether a value of type `other` may be stored in a slot of this type. Untyped nulls fit
everywhere and everything fits an untyped slot. At one level, integers and numerics convert into
each other and into imaginaries; all else has to agree in kind, fields and name. -/
def accepts (t other : Ty) : Bool :=
  if t.isUntyped || other.isUntyped then true
  else if t.level ≠ other.level then false
  else if t.kind = .noType ∨ other.kind = .noType then true
  else if t.kind.isNumber && other.kind.isNumber then
    t.kind == .imaginary || other.kind != .imaginary
  else t == other

/-- A pair of brackets for each level. -/
def brackets (level : Nat) : String := String.join (List.replicate level "[]")

/-- The name of a type. -/
def text : Ty → String
  | .plain k l => k.text ++ brackets l
  | .row _ l fs => "tuple(" ++ texts fs ++ ")" ++ brackets l
  | .named _ l n => n ++ brackets l
where
  /-- Names of the fields, separated by commas. -/
  texts : List Ty → String
    | [] => ""
    | [t] => text t
    | t :: ts => text t ++ ", " ++ texts ts

end Ty
end Crunch
