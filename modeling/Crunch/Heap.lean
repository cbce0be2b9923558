import Crunch.State

/-!
# Crunch.Heap

Objects during a run.

* `Heap.sweep`: gives up the objects that nothing refers to. An object lives as long as a variable, a
  value in use or a running method refers to it.
* `Heap.construct`: a new object.
* `Heap.invoke`: runs a method. An object is busy while one of its methods runs, and no second one
  can start then; so calls nest at most as deep as there are objects.
-/

namespace Crunch
namespace Heap

/-- The object of a number. -/
def find? (s : State) (id : Nat) : Option Object := s.objects.find? (·.id == id)

/-- Whether an object stays, when the values `held` are in use. -/
def isLive (s : State) (held : List Value) (o : Object) : Bool :=
  o.busy || s.references.contains o.id || (Value.referencesAll held).contains o.id

/-- The state without the objects that nothing refers to. Those that became free since the last sweep
are given up together, in the order in which they were made; the program gives up each one when the last
reference to it goes, so two of them may come in the other order there. -/
def swept (held : List Value) (s : State) : State :=
  if s.objects.isEmpty then s
  else
    let (live, dead) := s.objects.partition (isLive s held)
    { s with
      objects := live
      released := dead.reverse ++ s.released
      disk := dead.foldl (fun d o => o.native.destroy o.contents d) s.disk }

/-- Gives up the objects that nothing refers to. -/
def sweep (held : List Value) : Run Unit := modify (swept held)

/-- A new object, built by a constructor. -/
def construct (line : Nat) (t : NativeType) (number : Nat) (args : List Value) : Run Value := do
  let s ← get
  let (contents, disk) ← Run.lift line (t.construct number args s.disk)
  set { s with
    disk := disk
    objects := s.objects ++ [Object.mk s.nextId t contents false]
    nextId := s.nextId + 1 }
  return .object t.name s.nextId

/-- Changes an object. -/
def update (id : Nat) (f : Object → Object) : Run Unit :=
  modify fun s => { s with objects := s.objects.map fun o => if o.id = id then f o else o }

/-- A call of a method that other methods can make. -/
abbrev Call := Nat → Nat → List Argument → Run Value

/-- The outcome of a computation, unless its bound is reached. -/
def outcome {α : Type} (x : Run α) : Run (Except Fault α) := fun s =>
  match x s with
  | .ok a s => .ok (.ok a) s
  | .error (.error e) s => .ok (.error e) s
  | .error .outOfFuel s => .error .outOfFuel s

/-- Carries out what a method of object `id` does. -/
def perform (line : Nat) (callee : Call) (id : Nat) : Action → Run Value
  | .done v => pure v
  | .fail c => Run.fail line c
  | .keep i next => do
    update id fun o => { o with contents := i }
    perform line callee id next
  | .store into v next => do
    let stored ←
      match into.origin with
      | none => pure (.error (.mismatch .notAVariable))
      | some name => do
        let r ← outcome (Run.store line name v)
        pure (r.mapError (·.cause))
    perform line callee id (next stored)
  | .call object method args next => do
    let r ← outcome (callee object method args)
    perform line callee id (next (r.mapError (·.cause)))
  | .look next => do
    let s ← get
    perform line callee id (next s.disk)
  | .write d next => do
    modify fun s => { s with disk := d }
    perform line callee id next

/-- Runs a computation while an object is busy. -/
def whileBusy (id : Nat) (x : Run Value) : Run Value := fun s =>
  let mark (b : Bool) (s : State) : State :=
    { s with objects := s.objects.map fun o => if o.id = id then { o with busy := b } else o }
  match x (mark true s) with
  | .ok v s => .ok v (mark false s)
  | .error e s => .error e (mark false s)

/-- Runs a method, with calls from methods nested at most so deep. -/
def invokeTo (line : Nat) : Nat → Call
  | 0, _, _, _ => throw .outOfFuel
  | depth + 1, id, method, args => do
    match find? (← get) id with
    | none => Run.fail line (.native "object" "object was released")
    | some o =>
      if o.busy then Run.fail line (o.native.interface.refuse "object is busy")
      else whileBusy id (perform line (invokeTo line depth) id (o.native.invoke o.contents method args))

/-- Runs a method of an object. -/
def invoke (line : Nat) (id method : Nat) (args : List Argument) : Run Value := do
  invokeTo line ((← get).objects.length + 1) id method args

end Heap
end Crunch
