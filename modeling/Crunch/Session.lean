import Crunch.Check
import Crunch.Exec
import Crunch.Program.Parse

/-!
# Crunch.Session

Scripts run one after the other on one state. Variables and imports stay from one to the next.

* `Session.run`: parses, checks and carries out a script. Nothing is carried out when parsing or
  checking fails.
* `Session.exec`: the same without the check.
* `Session.check`: the types of the statements of a script.
* `Session.close`: the disk at the end, when everything has been given up.
-/

namespace Crunch

/-- Why a script has no result. -/
inductive Failure where
  | rejected (r : Rejection)
  | failed (f : Fault)
  | outOfFuel
deriving DecidableEq, Repr

/-- The message for the user. -/
def Failure.message : Failure → String
  | .rejected r => r.message
  | .failed f => f.message
  | .outOfFuel => "Too many steps."

/-- The failure of a computation on a script that has not run yet. -/
def Failure.ofRejection : Halt Rejection → Failure
  | .error r => .rejected r
  | .outOfFuel => .outOfFuel

/-- The failure of a run. -/
def Failure.ofFault : Halt Fault → Failure
  | .error f => .failed f
  | .outOfFuel => .outOfFuel

namespace Session

/-- What the check of the next script starts from. -/
def env (s : State) : Env := ⟨[s.declaredTypes], s.imports, s.types.map (·.interface)⟩

/-- The script of a source text. -/
def parse (source : String) : Except Failure Program :=
  match Program.ofSource source with
  | .ok p => .ok p
  | .error h => .error (Failure.ofRejection h)

/-- Makes one step, after which the objects that no variable refers to are given up. -/
def step {α : Type} (x : Run α) (s : State) : Except Failure α × State :=
  match x s with
  | .ok a s => (.ok a, Heap.swept [] s)
  | .error h s => (.error (Failure.ofFault h), Heap.swept [] s)

/-- Carries out a script without checking it. -/
def exec (passes : Nat) (source : String) (s : State) : Except Failure (Option Value) × State :=
  match parse source with
  | .error f => (.error f, s)
  | .ok p => step (p.exec passes) s

/-- Parses, checks and carries out a script. -/
def run (passes : Nat) (source : String) (s : State) : Except Failure (Option Value) × State :=
  match parse source with
  | .error f => (.error f, s)
  | .ok p =>
    match p.check (env s) with
    | .error r => (.error (.rejected r), s)
    | .ok _ => step (p.exec passes) s

/-- The types of the statements of a script, up to the first one that is rejected. -/
def check (source : String) (s : State) : Except Failure (List (Option Ty) × Option Rejection) :=
  (parse source).map fun p =>
    match p.types (env s) with
    | (ts, .ok _) => (ts, none)
    | (ts, .error r) => (ts, some r)

/-- Declares a variable. -/
def define (name : String) (v : Value) (s : State) : State := (step (Run.define name v) s).2

/-- Stores a value into a variable. -/
def store (line : Nat) (name : String) (v : Value) (s : State) : Except Failure Unit × State :=
  step (Run.store line name v) s

/-- The value of a variable. -/
def lookup (line : Nat) (name : String) (s : State) : Except Failure Value := (step (Run.lookup line name) s).1

/-- Whether a subject matches a pattern as a whole. -/
def matching (line : Nat) (subject source : Value) (s : State) : Except Failure Value × State :=
  step (Run.matching line subject source) s

/-- Makes a native type visible. -/
def importType (line : Nat) (name : String) (s : State) : Except Failure Unit × State :=
  step (Run.importType line name) s

/-- How often variables refer to the object that a variable holds. -/
def aliases (line : Nat) (name : String) (s : State) : Except Failure Nat := do
  let v ← lookup line name s
  match v.object? with
  | .ok id => return s.references.count id
  | .error c => .error (.failed ⟨line, c⟩)

/-- The state once all variables are gone. -/
def close (s : State) : State := Heap.swept [] { s with scopes := [] }

end Session
end Crunch
