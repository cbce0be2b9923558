import Crunch.Heap
import Crunch.Library

/-!
# Crunch.Call

Calls of functions during a run.

* `Builtin.perform`: what a function does with its arguments.
* `Builtin.call`: the same behind the checks of the number and the types of the arguments, and with
  the rule for nulls.
-/

namespace Crunch
namespace Builtin

/-- A random number: a numeric in `[0, 1)`, or an integer from zero up to a bound. -/
def drawRandom (line : Nat) : List Value → Run Value
  | [] => do
    let s ← get
    let (x, r) := s.random.unit
    set { s with random := r }
    return .numeric x
  | bound :: _ => do
    let n ← Run.lift line bound.integer?
    if n.toInt ≤ 0 then Run.fail line (.outOfRange (.randomBound n))
    else
      let s ← get
      let (m, r) := s.random.below n.toInt.toNat
      set { s with random := r }
      return .integer (lengthOf m)

/-- Stores the next line of the input into a variable. The result is false at the end. -/
def readInput (line : Nat) : List Argument → Run Value
  | a :: _ => do
    match ← Run.readLine line with
    | none => return .boolean false
    | some text =>
      match a.origin with
      | none => Run.fail line (.mismatch .notAVariable)
      | some name => do
        Run.store line name (.literal text)
        return .boolean true
  | [] => Run.fail line (.argumentCount Builtin.input.name)

/-- What a function does with its arguments. -/
def perform (line : Nat) (b : Builtin) (args : List Argument) : Run Value :=
  match b, args with
  | .random, args => drawRandom line (args.map (·.value))
  | .input, args => readInput line args
  | .print, [a] => do
    Run.print a.value.text
    return a.value
  | b, args => Run.lift line (b.compute (args.map (·.value)))

/-- The first argument of an unsuitable type. -/
def misfit? (b : Builtin) (types : List Ty) : Option Fault.Cause :=
  types.zipIdx.findSome? fun (t, i) =>
    if (b.domain i).admits t then none
    else some (.mismatch (.argument (i + 1) b.name (b.domain i).text t))

/-- The result of a call whose number of arguments is right. -/
def call (line : Nat) (b : Builtin) (args : List Argument) : Run Value :=
  let types := args.map (·.value.type)
  match b.misfit? types with
  | some c => Run.fail line c
  | none =>
    if b.propagatesNull && args.any (·.value.isNull) then pure (.null (b.result types))
    else b.perform line args

end Builtin
end Crunch
