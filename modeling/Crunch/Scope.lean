/-!
# Crunch.Scope

Nested scopes of names, innermost first.

* `Scopes.find?`: what the innermost declaration of a name stands for.
* `Scopes.define`: a declaration in the innermost scope, in place of one that is already there.
* `Scopes.update`: a change of the innermost declaration.
-/

namespace Crunch

/-- Names with what they stand for. A name occurs at most once. -/
abbrev Scope (α : Type) := List (String × α)

/-- Scopes, innermost first. -/
abbrev Scopes (α : Type) := List (Scope α)

/-- Declares a name, in place of an older declaration. -/
def Scope.put {α : Type} (s : Scope α) (name : String) (a : α) : Scope α :=
  match s with
  | [] => [(name, a)]
  | (n, b) :: rest => if n = name then (name, a) :: rest else (n, b) :: Scope.put rest name a

/-- Whether a name is declared. -/
def Scope.has {α : Type} (s : Scope α) (name : String) : Bool := (s.lookup name).isSome

namespace Scopes

variable {α : Type}

/-- What a name stands for. -/
def find? (ss : Scopes α) (name : String) : Option α := ss.findSome? (·.lookup name)

/-- Declares a name in the innermost scope. -/
def define (ss : Scopes α) (name : String) (a : α) : Scopes α :=
  match ss with
  | [] => []
  | s :: rest => s.put name a :: rest

/-- Changes what a name stands for where it is declared innermost. -/
def update (ss : Scopes α) (name : String) (a : α) : Scopes α :=
  match ss with
  | [] => []
  | s :: rest => if s.has name then s.put name a :: rest else s :: Scopes.update rest name a

/-- All declarations as one scope, inner ones in place of outer ones. -/
def visible (ss : Scopes α) : Scope α :=
  ss.foldr (fun s seen => s.foldl (fun seen (n, a) => Scope.put seen n a) seen) []

end Scopes

end Crunch
