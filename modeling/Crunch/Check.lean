import Crunch.Builtin
import Crunch.Native
import Crunch.Program
import Crunch.Rejection
import Crunch.Slot
import Crunch.Value.Method

/-!
# Crunch.Check

The check of a script before it runs.

* `Env`: what is known at a point of the script: types of the variables, and imports.
* `Expr.typeIn`: the type of an expression. The untyped one stands for what only the run will tell,
  and is let through everywhere.
* `Statement.check`: what is known after a statement.
-/

namespace Crunch

/-- What is known at a point of a script. -/
structure Env where
  scopes : Scopes Ty
  imports : List String
  /-- The native types that can be imported. -/
  interfaces : List Interface

namespace Rejection

/-- Rejects a script at a line. -/
def reject {α : Type} (line : Nat) (c : Rejection.Cause) : Except Rejection α := .error ⟨line, c⟩

/-- Rejects a script at a line because types do not fit. -/
def clash {α : Type} (line : Nat) (c : Clash) : Except Rejection α := reject line (.clash c)

end Rejection

open Rejection (reject clash)

/-- The type of a constant. -/
def Constant.type : Constant → Ty
  | .null => Ty.untyped
  | .boolean _ => Ty.boolean
  | .integer _ => Ty.integer
  | .numeric _ => Ty.numeric
  | .imaginary _ => Ty.imaginary
  | .literal _ => Ty.literal

/-- The type of the field at a position, counted from 1. -/
def Ty.field? (fields : List Ty) (position : Nat) : Option Ty :=
  if position = 0 then none else fields[position - 1]?

namespace Env

/-- The type of a variable. -/
def lookup (env : Env) (line : Nat) (name : String) : Except Rejection Ty :=
  match env.scopes.find? name with
  | some t => .ok t
  | none => reject line (.unknownVariable name)

/-- Declares a variable. -/
def define (env : Env) (name : String) (t : Ty) : Env := { env with scopes := env.scopes.define name t }

/-- Lets a variable without a type take the type of what is stored into it. -/
def adopt (env : Env) (name : String) (t : Ty) : Env :=
  match env.scopes.find? name with
  | some slot => { env with scopes := env.scopes.update name (Crunch.adopt slot t) }
  | none => env

/-- The interface of a native type. -/
def interface? (env : Env) (name : String) : Option Interface := env.interfaces.find? (·.name == name)

/-- The interface of an imported native type. -/
def imported? (env : Env) (name : String) : Option Interface :=
  if env.imports.contains name then env.interface? name else none

/-- Stores a value of some type into a variable. -/
def assign (env : Env) (line : Nat) (name : String) (t : Ty) : Except Rejection Env := do
  let target ← env.lookup line name
  if target.accepts t then return env.adopt name t
  else clash line (.assignment t name target)

/-- Makes a native type visible. -/
def importType (env : Env) (line : Nat) (name : String) : Except Rejection Env :=
  match env.interface? name with
  | none => reject line (.unknownType name)
  | some _ => .ok { env with imports := if env.imports.contains name then env.imports else name :: env.imports }

/-- Opens a scope. -/
def enter (env : Env) : Env := { env with scopes := [] :: env.scopes }

/-- Closes the innermost scope. -/
def leave (env : Env) : Env := { env with scopes := env.scopes.drop 1 }

end Env

namespace Check

/-- Arguments of the number that a function or method takes. -/
def expectCount (line : Nat) (name : String) (types : List Ty) (n : Nat) : Except Rejection Unit :=
  if types.length = n then .ok () else reject line (.argumentCount name types.length)

/-- Arguments for declared parameters. A parameter that is stored into needs a variable. -/
def params (line : Nat) (name : String) (ps : List Param) (types : List Ty) (assignable : List Bool) :
    Except Rejection Unit :=
  (ps.zip (types.zip assignable)).zipIdx.forM fun ((p, t, isVariable), i) =>
    if !p.type.accepts t then reject line (.argumentType name (i + 1) p.type.text t)
    else if p.direction = .inOut ∧ !isVariable then reject line (.notAssignable name (i + 1))
    else .ok ()

/-- Arguments in the domains of a function. -/
def domains (line : Nat) (b : Builtin) (types : List Ty) (assignable : List Bool) : Except Rejection Unit :=
  (types.zip assignable).zipIdx.forM fun ((t, isVariable), i) =>
    let d := b.domain i
    if !d.admits t then reject line (.argumentType b.name (i + 1) d.text t)
    else if d = .literalVariable ∧ !isVariable then reject line (.notAssignable b.name (i + 1))
    else .ok ()

/-- Whether arguments that are ordered against each other are all numbers or all literals. -/
def oneOrder (b : Builtin) (types : List Ty) : Bool :=
  let kinds := (types.zipIdx.filter fun (t, i) => b.domain i == .numberOrLiteral && !t.isUntyped).map
    fun (t, _) => t.isScalar .literal
  kinds.all (· == kinds.headD true)

/-- The type of a function's result. -/
def function (line : Nat) (b : Builtin) (types : List Ty) (assignable : List Bool) : Except Rejection Ty := do
  if !b.arity.admits types.length then reject line (.argumentCount b.name types.length)
  domains line b types assignable
  if oneOrder b types then return b.result types else clash line (.mixedOrder b.name)

/-- The type of a call. -/
def call (env : Env) (line : Nat) (name : String) (types : List Ty) (assignable : List Bool) :
    Except Rejection Ty :=
  match env.imported? name with
  | some i =>
    match i.findConstructor? types.length with
    | none => reject line (.argumentCount name types.length)
    | some n => do
      params line name (i.constructors.getD n []) types assignable
      return Ty.object name
  | none =>
    match Builtin.ofName? name with
    | none => reject line (.unknownFunction name)
    | some b => function line b types assignable

/-- The type of an object's method. -/
def objectMethod (line : Nat) (i : Interface) (receiver : Ty) (name : String) (types : List Ty)
    (assignable : List Bool) : Except Rejection Ty :=
  match i.findMethod? name types.length with
  | some (_, m) => do
    params line name m.params types assignable
    return m.result
  | none =>
    if i.hasMethod name then reject line (.argumentCount name types.length)
    else reject line (.unknownMethod name receiver)

/-- Whether a type is one for the index of a sequence. -/
def expectIndex (line : Nat) (name : String) (position : Nat) (t : Ty) : Except Rejection Unit :=
  if Domain.integer.admits t then .ok ()
  else reject line (.argumentType name position Domain.integer.text t)

/-- Whether an item of type `t` can go into a sequence. A `single` item is no text or collection of
several ones. -/
def admitsItem (receiver t : Ty) (single : Bool) : Bool :=
  match receiver.element? with
  | some e => e.accepts t || (!single && receiver.accepts t)
  | none =>
    if single then Domain.integer.admits t
    else if receiver.isScalar .literal then Domain.literalOrInteger.admits t
    else Domain.literalOrBytes.admits t || Domain.integer.admits t

/-- Whether an item fits a sequence. -/
def expectItem (line : Nat) (name : String) (receiver : Ty) (position : Nat) (t : Ty) (single : Bool) :
    Except Rejection Unit :=
  if admitsItem receiver t single then .ok ()
  else reject line (.argumentType name position s!"an item for {receiver.text}" t)

/-- The type of a method of a literal, byte array or collection. -/
def sequenceMethod (line : Nat) (receiver : Ty) (name : String) (types : List Ty) : Except Rejection Ty :=
  let first := types.getD 0 Ty.untyped
  let second := types.getD 1 Ty.untyped
  match name with
  | "count" => do
    expectCount line name types 0
    return Ty.integer
  | "at" => do
    expectCount line name types 1
    expectIndex line name 1 first
    return receiver.element?.getD Ty.integer
  | "insert" | "put" => do
    expectCount line name types 2
    expectIndex line name 1 first
    expectItem line name receiver 2 second (name == "put")
    return receiver
  | "append" => do
    expectCount line name types 1
    expectItem line name receiver 1 first false
    return receiver
  | "delete" => do
    expectCount line name types 1
    expectIndex line name 1 first
    return receiver
  | _ => reject line (.unknownMethod name receiver)

/-- Whether a type has methods of sequences. -/
def isSequence (t : Ty) : Bool := t.isCollection || t.isScalar .literal || t.isScalar .tabchar

/-- The type of the replacement of a field. -/
def setField (line : Nat) (receiver : Ty) (name : String) (position : Nat) (types : List Ty) :
    Except Rejection Ty :=
  match receiver.fields? with
  | none => reject line (.unknownMethod name receiver)
  | some fields =>
    match Ty.field? fields position with
    | none => clash line (.noField receiver position)
    | some field => do
      expectCount line name types 1
      let t := types.headD Ty.untyped
      if field.accepts t then return receiver
      else reject line (.argumentType name 1 field.text t)

/-- The type of a method call. -/
def member (env : Env) (line : Nat) (receiver : Ty) (m : Member) (types : List Ty) (assignable : List Bool) :
    Except Rejection Ty :=
  let name := m.text
  if receiver.isUntyped then .ok Ty.untyped
  else
    match receiver.objectName?, m with
    | some native, _ =>
      match env.interface? native with
      | none => reject line (.unknownMethod name receiver)
      | some i => objectMethod line i receiver name types assignable
    | none, .setField position => setField line receiver name position types
    | none, .named _ =>
      if receiver.fields?.isSome then
        if name = "count" then (expectCount line name types 0).map fun _ => Ty.integer
        else reject line (.unknownMethod name receiver)
      else if isSequence receiver then sequenceMethod line receiver name types
      else reject line (.unknownMethod name receiver)

/-- The type of an element of a collection. -/
def index (line : Nat) (target position : Ty) : Except Rejection Ty :=
  if !Domain.integer.admits position then clash line (.index position)
  else if target.isUntyped then .ok Ty.untyped
  else
    match target.element? with
    | some e => .ok e
    | none => clash line (.notIndexable target)

/-- The type of a field of a tuple. -/
def field (line : Nat) (target : Ty) (position : Nat) : Except Rejection Ty :=
  if target.isUntyped then .ok Ty.untyped
  else
    match target.fields? with
    | none => clash line (.noFields target)
    | some fields =>
      match Ty.field? fields position with
      | some t => .ok t
      | none => clash line (.noField target position)

/-- The type of a collection once a further element is in it. -/
def element (line : Nat) (held t : Ty) : Except Rejection Ty :=
  match Ty.unify? held t with
  | some u => .ok u
  | none => clash line (.element held t)

/-- A condition is a boolean. -/
def condition (line : Nat) (t : Ty) : Except Rejection Unit :=
  if t.isOrUntyped .boolean then .ok () else clash line (.condition t)

/-- A bound of a range is an integer. -/
def bound (line : Nat) (t : Ty) : Except Rejection Unit :=
  if Domain.integer.admits t then .ok () else clash line (.bound t)

end Check

/-- Whether an expression is nothing but a variable. -/
def Expr.isVariable : Expr → Bool
  | .var _ _ => true
  | _ => false

mutual

/-- The type of an expression. -/
def Expr.typeIn (env : Env) : Expr → Except Rejection Ty
  | .constant _ c => .ok c.type
  | .var line name => env.lookup line name
  | .unary line op e => do
    let t ← e.typeIn env
    match op.result? t with
    | some r => return r
    | none => reject line (.misuse (.unary op t))
  | .binary line op left right => do
    let a ← left.typeIn env
    let b ← right.typeIn env
    match op.result? a b with
    | some r => return r
    | none => reject line (.misuse (.binary op a b))
  | .call line name arguments => do
    let types ← Expr.typesIn env arguments
    Check.call env line name types (arguments.map Expr.isVariable)
  | .member line receiver m arguments => do
    let r ← receiver.typeIn env
    let types ← Expr.typesIn env arguments
    Check.member env line r m types (arguments.map Expr.isVariable)
  | .index line target position => do
    let t ← target.typeIn env
    let p ← position.typeIn env
    Check.index line t p
  | .field line target position => do
    let t ← target.typeIn env
    Check.field line t position
  | .collection line elements => do
    let e ← Expr.elementIn env line Ty.untyped elements
    return e.arrayOf

/-- The types of expressions. -/
def Expr.typesIn (env : Env) : List Expr → Except Rejection (List Ty)
  | [] => .ok []
  | e :: es => do
    let t ← e.typeIn env
    let ts ← Expr.typesIn env es
    return t :: ts

/-- The common type of the elements of a collection. -/
def Expr.elementIn (env : Env) (line : Nat) (held : Ty) : List Expr → Except Rejection Ty
  | [] => .ok held
  | e :: es => do
    let t ← e.typeIn env
    let u ← Check.element line held t
    Expr.elementIn env line u es

end

/-- The type of the variable of a `for` loop. -/
def Source.typeIn (env : Env) (line : Nat) : Source → Except Rejection Ty
  | .range start bound _ => do
    Check.bound line (← start.typeIn env)
    Check.bound line (← bound.typeIn env)
    return Ty.integer
  | .elements e => do
    let t ← e.typeIn env
    if t.isUntyped then return Ty.untyped
    else
      match t.element? with
      | some u => return u
      | none => clash line (.iteration t)

mutual

/-- Checks a statement. -/
def Statement.check (env : Env) : Statement → Except Rejection Env
  | .expression _ e => (e.typeIn env).map fun _ => env
  | .declare _ name e => do
    let t ← e.typeIn env
    return env.define name t
  | .assign line name e => do
    let t ← e.typeIn env
    env.assign line name t
  | .compound line name op e => do
    let target ← env.lookup line name
    let t ← e.typeIn env
    match op.result? target t with
    | some r => env.assign line name r
    | none => reject line (.misuse (.compound op target t))
  | .choice line branches otherwise => do
    let env ← Statement.checkBranches line env branches
    Statement.checkOptional env otherwise
  | .loop line condition body => do
    Check.condition line (← condition.typeIn env)
    return (← Statement.checkAll env.enter body).leave
  | .each line name source body => do
    let t ← source.typeIn env line
    return (← Statement.checkAll (env.enter.define name t).enter body).leave.leave
  | .raise _ _ => .ok env
  | .attempt _ body handlers => do
    let env ← Statement.checkAll env.enter body
    Statement.checkHandlers env.leave handlers
  | .load line name => env.importType line name

/-- Checks statements in order. -/
def Statement.checkAll (env : Env) : List Statement → Except Rejection Env
  | [] => .ok env
  | s :: rest => do
    let env ← s.check env
    Statement.checkAll env rest

/-- Checks conditions with their blocks. -/
def Statement.checkBranches (line : Nat) (env : Env) : List (Expr × List Statement) → Except Rejection Env
  | [] => .ok env
  | (condition, body) :: rest => do
    Check.condition line (← condition.typeIn env)
    let env ← Statement.checkAll env.enter body
    Statement.checkBranches line env.leave rest

/-- Checks a block, if there is one. -/
def Statement.checkOptional (env : Env) : Option (List Statement) → Except Rejection Env
  | none => .ok env
  | some body => do
    return (← Statement.checkAll env.enter body).leave

/-- Checks handlers, which find the message of the error in a variable. -/
def Statement.checkHandlers (env : Env) : List (Handler Statement) → Except Rejection Env
  | [] => .ok env
  | ⟨_, _, body⟩ :: rest => do
    let env ← Statement.checkAll (env.enter.define errorVariable Ty.literal) body
    Statement.checkHandlers env.leave rest

end

namespace Program

/-- Checks a whole script. -/
def check (env : Env) (p : Program) : Except Rejection Env := Statement.checkAll env p

/-- The types of the expression statements of a script, up to the first statement that is
rejected. Other statements have none. -/
def types (env : Env) : Program → List (Option Ty) × Except Rejection Env
  | [] => ([], .ok env)
  | .expression _ e :: rest =>
    match e.typeIn env with
    | .error r => ([], .error r)
    | .ok t =>
      let (ts, outcome) := types env rest
      (some t :: ts, outcome)
  | s :: rest =>
    match s.check env with
    | .error r => ([], .error r)
    | .ok env =>
      let (ts, outcome) := types env rest
      (none :: ts, outcome)

end Program

end Crunch
