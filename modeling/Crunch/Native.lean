import Crunch.Csv
import Crunch.OpenFile
import Crunch.Value

/-!
# Crunch.Native

Native types: types whose objects are more than data of a script.

* `Interface`: the constructors and methods that a native type declares. A call is resolved by name
  and number of arguments.
* `Instance`: what an object is made of.
* `Action`: what a method does, step by step. Besides its own instance it can reach the variables
  that it was given, the methods of other objects, and the disk. The program hands the whole state to
  a method; one that declares or looks up variables, or runs a script, is left out here.
* `NativeType`: an interface with its constructors and methods, and what happens when an object is
  released.
-/

namespace Crunch

/-- How an argument is passed. -/
inductive Direction where
  /-- The method only reads it. -/
  | input
  /-- The method may store into it, so it has to be a variable. -/
  | inOut
deriving DecidableEq, Repr

structure Param where
  name : String
  type : Ty
  direction : Direction := .input
deriving DecidableEq, Repr

structure Method where
  name : String
  result : Ty
  params : List Param
deriving DecidableEq, Repr

structure Interface where
  name : String
  constructors : List (List Param)
  methods : List Method
deriving DecidableEq, Repr

namespace Interface

/-- Number of the first constructor with so many parameters. -/
def findConstructor? (i : Interface) (arity : Nat) : Option Nat :=
  i.constructors.findIdx? (·.length == arity)

/-- Number and declaration of the first method of a name with so many parameters. -/
def findMethod? (i : Interface) (name : String) (arity : Nat) : Option (Nat × Method) := do
  let n ← i.methods.findIdx? fun m => m.name == name && m.params.length == arity
  let m ← i.methods[n]?
  return (n, m)

/-- Whether a method has this name, with whatever parameters. -/
def hasMethod (i : Interface) (name : String) : Bool := i.methods.any (·.name == name)

end Interface

/-- What an object is made of. -/
inductive Instance where
  | integer (n : Int64)
  | text (s : String)
  | dialect (d : Csv.Dialect)
  | file (f : OpenFile)
deriving DecidableEq, Repr

/-- An argument of a call, with the variable that it was read from, if it is nothing but one. -/
structure Argument where
  value : Value
  origin : Option String

/-- What a method does. It cannot declare variables, look up any but those it was given, or run a
script. -/
inductive Action where
  /-- Ends with a result. -/
  | done (v : Value)
  /-- Ends with an error. -/
  | fail (c : Fault.Cause)
  /-- Changes the instance that the method runs on. -/
  | keep (i : Instance) (next : Action)
  /-- Stores a value into the variable of an argument. -/
  | store (into : Argument) (v : Value) (next : Except Fault.Cause Unit → Action)
  /-- Calls a method of an object by its number. -/
  | call (object : Nat) (method : Nat) (args : List Argument) (next : Except Fault.Cause Value → Action)
  /-- Looks at the disk. -/
  | look (next : Disk → Action)
  /-- Replaces the disk. -/
  | write (d : Disk) (next : Action)

/-- The action that ends as a computation does. -/
def Action.ofExcept : Except Fault.Cause Value → Action
  | .ok v => .done v
  | .error c => .fail c

/-- A native type, whose constructors and methods do nothing to the state but what an `Action` does. -/
structure NativeType where
  interface : Interface
  /-- Builds an instance by the number of a constructor. -/
  construct : Nat → List Value → Disk → Except Fault.Cause (Instance × Disk)
  /-- Runs a method by its number. -/
  invoke : Instance → Nat → List Argument → Action
  /-- Gives up an instance. -/
  destroy : Instance → Disk → Disk

namespace NativeType

def name (t : NativeType) : String := t.interface.name

end NativeType

namespace Interface

/-- The error that a native type reports. -/
def refuse (i : Interface) (message : String) : Fault.Cause := .native i.name message

/-- The error for an instance of another type. -/
def foreign (i : Interface) : Fault.Cause := i.refuse "foreign instance"

/-- The error for a method that is not declared. -/
def noMethod (i : Interface) (n : Nat) : Fault.Cause := i.refuse s!"no method #{n}"

end Interface

end Crunch
