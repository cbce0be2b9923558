import Crunch.Halt
import Crunch.Native.Csv
import Crunch.Native.File
import Crunch.Pattern.Cache
import Crunch.Random
import Crunch.Slot

/-!
# Crunch.State

What a script runs on, and what stays when it ends.

* `Object`: an instance of a native type, and whether one of its methods runs.
* `State`: variables, native types, objects, and what is read and printed.
* `Run`: computations that change the state and may fail. The changes up to a failure stay.
-/

namespace Crunch

/-- An object of a native type. -/
structure Object where
  id : Nat
  native : NativeType
  contents : Instance
  /-- Whether one of its methods runs. -/
  busy : Bool

structure State where
  scopes : Scopes Slot
  /-- The native types that can be imported. -/
  types : List NativeType
  /-- Names of the types that have been imported. -/
  imports : List String
  random : Random
  /-- Whether loops and input have to end. -/
  stopped : Bool
  /-- Results of operators that none of the operands could make room for. -/
  allocations : Nat
  patterns : Pattern.Cache
  /-- Input not yet read. -/
  input : List UInt8
  /-- Lines printed, the latest first. -/
  printed : List String
  disk : Disk
  /-- Objects in use, by the order in which they were made. -/
  objects : List Object
  /-- Number of the next object. -/
  nextId : Nat
  /-- Objects given up, the latest first. -/
  released : List Object

namespace State

/-- The native types of every script. -/
def bundled : List NativeType := [Csv.nativeType, OpenFile.nativeType]

/-- The state before anything has run. -/
def fresh (engine : Pattern.Engine) (random : Random) (input : List UInt8) (disk : Disk) : State where
  scopes := [[]]
  types := bundled
  imports := []
  random := random
  stopped := false
  allocations := 0
  patterns := .empty engine
  input := input
  printed := []
  disk := disk
  objects := []
  nextId := 0
  released := []

/-- The native type of a name. -/
def type? (s : State) (name : String) : Option NativeType := s.types.find? (·.name == name)

/-- The imported native type of a name. -/
def imported? (s : State) (name : String) : Option NativeType :=
  if s.imports.contains name then s.type? name else none

/-- Adds a native type, in place of one of the same name. -/
def register (s : State) (t : NativeType) : State :=
  { s with types := t :: s.types.filter (·.name != t.name) }

/-- Declared types of the variables. -/
def declaredTypes (s : State) : Scope Ty := s.scopes.visible.map fun (n, slot) => (n, slot.type)

/-- References to objects from variables, one entry for each. -/
def references (s : State) : List Nat :=
  s.scopes.flatMap fun scope => scope.flatMap fun (_, slot) => slot.value.references

/-- Everything printed. -/
def output (s : State) : String := String.join s.printed.reverse

end State

/-- Computations on a state. -/
abbrev Run := EStateM (Halt Fault) State

namespace Run

/-- Fails at a line. -/
def fail {α : Type} (line : Nat) (c : Fault.Cause) : Run α := throw (.error ⟨line, c⟩)

/-- The result of a pure computation, whose failure points at a line. -/
def lift {α : Type} (line : Nat) : Except Fault.Cause α → Run α
  | .ok a => pure a
  | .error c => fail line c

/-- The value of a variable. -/
def lookup (line : Nat) (name : String) : Run Value := do
  match (← get).scopes.find? name with
  | some slot => return slot.value
  | none => fail line (.unknownVariable name)

/-- Declares a variable in the innermost scope. -/
def define (name : String) (v : Value) : Run Unit :=
  modify fun s => { s with scopes := s.scopes.define name (Slot.ofValue v) }

/-- Stores a value into a variable, converted to its type. -/
def store (line : Nat) (name : String) (v : Value) : Run Unit := do
  match (← get).scopes.find? name with
  | none => fail line (.unknownVariable name)
  | some slot =>
    let slot ← lift line (slot.store v)
    modify fun s => { s with scopes := s.scopes.update name slot }

/-- Runs a computation in a new innermost scope, which is gone afterwards in any case. -/
def nested {α : Type} (x : Run α) : Run α := fun s =>
  match x { s with scopes := [] :: s.scopes } with
  | .ok a s => .ok a { s with scopes := s.scopes.drop 1 }
  | .error e s => .error e { s with scopes := s.scopes.drop 1 }

/-- Fails if the script has to end. -/
def checkStop (line : Nat) : Run Unit := do
  if (← get).stopped then fail line .interrupted

/-- Counts a result that none of the operands could make room for. -/
def allocate : Run Unit := modify fun s => { s with allocations := s.allocations + 1 }

/-- Prints a line. -/
def print (text : String) : Run Unit := modify fun s => { s with printed := (text ++ "\n") :: s.printed }

/-- The next line of the input, and nothing at its end. A line that is no text is passed over. -/
def readLine (line : Nat) : Run (Option String) := do
  checkStop line
  let s ← get
  if s.input.isEmpty then return none
  let (bytes, rest) := splitLine s.input
  set { s with input := rest }
  match lineText bytes with
  | .ok text => return some text
  | .error e => fail line (.input e.text)

/-- Makes a native type visible. -/
def importType (line : Nat) (name : String) : Run Unit := do
  match (← get).type? name with
  | none => fail line (.unknownType name)
  | some _ => modify fun s => { s with imports := if s.imports.contains name then s.imports else name :: s.imports }

end Run
end Crunch
