import Crunch.Operator

/-!
# Crunch.Program

Scripts as trees.

* `Expr`: expressions.
* `Statement`: statements; a block is a list of them.
* `Program`: the statements of a whole script.

Every node knows the line that messages about it point at.
-/

namespace Crunch

/-- A constant in a script. -/
inductive Constant where
  | null
  | boolean (b : Bool)
  | integer (n : Int64)
  | numeric (x : Float)
  /-- Holds the imaginary component. -/
  | imaginary (x : Float)
  | literal (s : String)
deriving DecidableEq, Repr

/-- What is called on a receiver. -/
inductive Member where
  | named (name : String)
  /-- Replaces a field of a tuple, counted from 1. -/
  | setField (position : Nat)
deriving DecidableEq, Repr

/-- The spelling in a script. -/
def Member.text : Member → String
  | .named name => name
  | .setField position => s!"set@{position}"

inductive Expr where
  | constant (line : Nat) (c : Constant)
  | var (line : Nat) (name : String)
  | unary (line : Nat) (op : UnaryOp) (operand : Expr)
  | binary (line : Nat) (op : BinaryOp) (left right : Expr)
  /-- A call of a function or the construction of an object. -/
  | call (line : Nat) (name : String) (arguments : List Expr)
  | member (line : Nat) (receiver : Expr) (method : Member) (arguments : List Expr)
  | index (line : Nat) (target position : Expr)
  /-- A field of a tuple, counted from 1. -/
  | field (line : Nat) (target : Expr) (position : Nat)
  | collection (line : Nat) (elements : List Expr)

/-- The line of an expression. -/
def Expr.line : Expr → Nat
  | .constant l _ | .var l _ | .unary l _ _ | .binary l _ _ _ | .call l _ _ | .member l _ _ _
  | .index l _ _ | .field l _ _ | .collection l _ => l

/-- What a `for` runs over. -/
inductive Source where
  | elements (e : Expr)
  /-- The integers from the start up to the bound, which may belong to them or not. -/
  | range (start bound : Expr) (inclusive : Bool)

/-- Statements that handle the exceptions of a name. -/
structure Handler (σ : Type) where
  name : String
  line : Nat
  body : List σ

inductive Statement where
  | expression (line : Nat) (e : Expr)
  | declare (line : Nat) (name : String) (e : Expr)
  | assign (line : Nat) (name : String) (e : Expr)
  | compound (line : Nat) (name : String) (op : BinaryOp) (e : Expr)
  /-- Conditions with their blocks, and the block for when none of them holds. -/
  | choice (line : Nat) (branches : List (Expr × List Statement)) (otherwise : Option (List Statement))
  | loop (line : Nat) (condition : Expr) (body : List Statement)
  | each (line : Nat) (name : String) (source : Source) (body : List Statement)
  | raise (line : Nat) (name : String)
  | attempt (line : Nat) (body : List Statement) (handlers : List (Handler Statement))
  | load (line : Nat) (name : String)

/-- The line of a statement. -/
def Statement.line : Statement → Nat
  | .expression l _ | .declare l _ _ | .assign l _ _ | .compound l _ _ _ | .choice l _ _ | .loop l _ _
  | .each l _ _ _ | .raise l _ | .attempt l _ _ | .load l _ => l

/-- The variable that holds the message of a handled error. -/
def errorVariable : String := "error"

/-- A whole script. -/
abbrev Program := List Statement

end Crunch
