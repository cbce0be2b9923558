import Crunch.Eval

/-!
# Crunch.Exec

Statements carried out on a state.

* `Statement.exec`: one statement. `passes` bounds the passes of each `while` loop.
* `Statement.execAll`: statements in order.
* `Program.exec`: a whole script. Its result is the value of the last expression statement.

Blocks, passes of loops and handlers have scopes of their own, which end on every way out.
-/

namespace Crunch

/-- The name of the handler that takes every error. -/
def anyError : String := "others"

namespace Run

/-- Repeats a body while a condition holds. -/
def repeatWhile (line : Nat) (condition : Run Value) (body : Run Unit) : Nat → Run Unit
  | 0 => throw .outOfFuel
  | passes + 1 => do
    checkStop line
    let v ← condition
    if ← lift line v.condition then
      body
      repeatWhile line condition body passes

/-- One pass of a `for` loop. -/
def pass (line : Nat) (name : String) (v : Value) (body : Run Unit) : Run Unit := do
  checkStop line
  nested do
    define name v
    nested body

/-- Runs a body for `n` integers from the first one on. -/
def eachInteger (line : Nat) (name : String) (body : Run Unit) : Nat → Int64 → Run Unit
  | 0, _ => pure ()
  | n + 1, i => do
    pass line name (.integer i) body
    eachInteger line name body n (i + 1)

/-- Runs a body for each value. The values still to come stay in use. -/
def eachValue (line : Nat) (name : String) (body : List Value → Run Unit) : List Value → Run Unit
  | [] => pure ()
  | v :: rest => do
    pass line name v (body rest)
    eachValue line name body rest

/-- How many integers there are from a start up to a bound. -/
def rangeSize (start bound : Int64) (inclusive : Bool) : Nat :=
  (bound.toInt - start.toInt + if inclusive then 1 else 0).toNat

/-- The error of a computation that a handler may take. -/
def failure? (x : Run Unit) : Run (Option Fault) := fun s =>
  match x s with
  | .ok () s => .ok none s
  | .error (.error f) s => if f.isCatchable then .ok (some f) s else .error (.error f) s
  | .error .outOfFuel s => .error .outOfFuel s

end Run

/-- The handler for the errors of a name: the first one of that name, or else the first one for
all errors. -/
def findHandler? {α : Type} (name : String) (handlers : List (String × α)) : Option α :=
  (handlers.lookup name).or (handlers.lookup anyError)

mutual

/-- Carries out a statement. The result is the value of an expression statement. -/
def Statement.exec (held : List Value) (passes : Nat) : Statement → Run (Option Value)
  | .expression _ e => some <$> e.eval held
  | .declare _ name e => do
    let v ← e.eval held
    Run.define name v
    return none
  | .assign line name e => do
    let v ← e.eval held
    Run.store line name v
    return none
  | .compound line name op e => do
    let r ← e.operand held
    let v ← Run.combine line op (.named name) r
    Run.store line name v
    return none
  | .choice line branches otherwise => do
    Statement.execBranches held passes line (Statement.execOptional held passes otherwise) branches
    return none
  | .loop line condition body => do
    Run.repeatWhile line (condition.eval held) (Run.nested (Statement.execAll held passes body)) passes
    return none
  | .each line name source body => do
    match source with
    | .range start bound inclusive => do
      let a ← Run.lift line (← start.eval held).integer?
      let b ← Run.lift line (← bound.eval held).integer?
      Run.eachInteger line name (Statement.execAll held passes body) (Run.rangeSize a b inclusive) a
    | .elements e => do
      let c ← Run.lift line (Collection.ofValue? (← e.eval held))
      Run.eachValue line name (fun rest => Statement.execAll (rest ++ held) passes body) c.items
    return none
  | .raise line name => Run.fail line (.raised name)
  | .attempt _ body handlers => do
    match ← Run.failure? (Run.nested (Statement.execAll held passes body)) with
    | none => return none
    | some f =>
      match findHandler? f.name (Statement.execHandlers held passes handlers) with
      | none => throw (.error f)
      | some handler => do
        Run.nested do
          Run.define errorVariable (.literal f.message)
          handler
        return none
  | .load line name => do
    Run.importType line name
    return none

/-- Carries out statements in order. -/
def Statement.execAll (held : List Value) (passes : Nat) : List Statement → Run Unit
  | [] => pure ()
  | s :: rest => do
    let _ ← s.exec held passes
    Statement.execAll held passes rest

/-- Carries out the block of the first condition that holds. -/
def Statement.execBranches (held : List Value) (passes line : Nat)
    (otherwise : Run Unit) : List (Expr × List Statement) → Run Unit
  | [] => otherwise
  | (condition, body) :: rest => do
    let v ← condition.eval held
    if ← Run.lift line v.condition then Run.nested (Statement.execAll held passes body)
    else Statement.execBranches held passes line otherwise rest

/-- Carries out a block, if there is one. -/
def Statement.execOptional (held : List Value) (passes : Nat) : Option (List Statement) → Run Unit
  | none => pure ()
  | some body => Run.nested (Statement.execAll held passes body)

/-- What each handler does, by its name. -/
def Statement.execHandlers (held : List Value) (passes : Nat) :
    List (Handler Statement) → List (String × Run Unit)
  | [] => []
  | ⟨name, _, body⟩ :: rest =>
    (name, Statement.execAll held passes body) :: Statement.execHandlers held passes rest

end

/-- Carries out a script. `last` is the value of the last expression statement so far. -/
def Program.execFrom (held : List Value) (passes : Nat) (last : Option Value) : Program → Run (Option Value)
  | [] => pure last
  | s :: rest => do
    let v ← s.exec (last.toList ++ held) passes
    Program.execFrom held passes (v.or last) rest

/-- Carries out a script. -/
def Program.exec (passes : Nat) (p : Program) : Run (Option Value) := p.execFrom [] passes none

end Crunch
