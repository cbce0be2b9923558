import Crunch.Call
import Crunch.Operation
import Crunch.Value.Method

/-!
# Crunch.Eval

Expressions evaluated on a state.

* `Operand`: a variable, which is read when an operator is applied, or a value of the expression.
* `Expr.operand`: evaluates an expression. The values `held` are those in use around it; objects
  that they refer to stay.
* `Expr.eval`: the value of an expression.
-/

namespace Crunch

/-- An evaluated operand. -/
inductive Operand where
  | named (name : String)
  | temporary (v : Value)

namespace Operand

def isNamed : Operand → Bool
  | .named _ => true
  | .temporary _ => false

/-- The value, read from the variable now. -/
def read (line : Nat) : Operand → Run Value
  | .named name => Run.lookup line name
  | .temporary v => pure v

/-- The values that the operand keeps in use. -/
def held : Operand → List Value
  | .named _ => []
  | .temporary v => [v]

end Operand

namespace Run

/-- Applies an operator to two values. -/
def binary (line : Nat) (op : BinaryOp) (l r : Value) : Run Value := do
  let s ← get
  let (result, patterns) := op.apply l r s.patterns
  set { s with patterns := patterns }
  lift line result

/-- Whether a subject matches a pattern as a whole. -/
def matching (line : Nat) (subject source : Value) : Run Value := do
  let s ← get
  let (result, patterns) := Operation.matching subject source s.patterns
  set { s with patterns := patterns }
  lift line result

/-- A result, which counts as allocated when every operand is a variable. -/
def counted (operands : List Operand) (v : Value) : Run Value := do
  if operands.all Operand.isNamed then allocate
  return v

/-- Applies an operator to two operands. A text on the left that belongs to the expression is
joined with the text on the right. -/
def combine (line : Nat) (op : BinaryOp) (l r : Operand) : Run Value := do
  match op, l with
  | .add, .temporary (.literal s) => lift line (Operation.concat (.literal s) (← r.read line))
  | .add, .temporary (.tabchar bytes) => lift line (Operation.concat (.tabchar bytes) (← r.read line))
  | op, l => do
    let a ← l.read line
    let b ← r.read line
    counted [l, r] (← binary line op a b)

/-- Applies `and` or `or`, where `right` is only evaluated when the left operand does not decide. Both
operands are read after that, but the left one counts as it was before. -/
def shortCircuit (line : Nat) (op : BinaryOp) (l : Operand) (right : Run Operand) : Run Value := do
  let a ← lift line (Operation.truth op (← l.read line))
  match Operation.decided op a with
  | some b => return .boolean b
  | none =>
    let r ← right
    let _ ← l.read line
    let b ← lift line (Operation.truth op (← r.read line))
    counted [l, r] (Operation.ofTruth (Operation.connective op a b))

/-- Changes a variable by a method. -/
def mutate (line : Nat) (name : String) (m : Member) (args : List Value) : Run Unit := do
  match (← get).scopes.find? name with
  | none => fail line (.unknownVariable name)
  | some slot =>
    let (v, outcome) := slot.value.mutate m args
    let slot :=
      match outcome with
      | .ok _ => slot.withValue v
      | .error _ => { slot with value := v }
    modify fun s => { s with scopes := s.scopes.update name slot }
    lift line outcome

/-- Calls a method of a value that is no object. The result of one that changes a variable is the
variable. -/
def callMember (line : Nat) (receiver : Operand) (m : Member) (args : List Value) : Run Operand := do
  if m.isMutator then
    match receiver with
    | .named name => do
      mutate line name m args
      return receiver
    | .temporary v => do
      let (w, outcome) := v.mutate m args
      lift line outcome
      return .temporary w
  else
    let v ← receiver.read line
    return .temporary (← lift line (v.access m args))

/-- Calls a method of an object. -/
def callObject (line : Nat) (held : List Value) (native : String) (id : Nat) (name : String)
    (args : List Argument) : Run Value := do
  match Heap.find? (← get) id with
  | none => fail line (.native native "object was released")
  | some o =>
    match o.native.interface.findMethod? name args.length with
    | none => fail line (.noMethod (Ty.object native) name (some args.length))
    | some (method, _) => do
      Heap.sweep (.object native id :: args.map (·.value) ++ held)
      Heap.invoke line id method args

/-- Builds an object. -/
def construct (line : Nat) (held : List Value) (t : NativeType) (name : String) (args : List Value) :
    Run Value := do
  match t.interface.findConstructor? args.length with
  | none => fail line (.argumentCount name)
  | some number => do
    Heap.sweep (args ++ held)
    Heap.construct line t number args

end Run

/-- The variable that an expression is nothing but. -/
def Expr.variable? : Expr → Option String
  | .var _ name => some name
  | _ => none

mutual

/-- Evaluates an expression, without reading the variable that it may be. -/
def Expr.operand (held : List Value) : Expr → Run Operand
  | .constant _ c => pure (.temporary (Value.ofConstant c))
  | .var line name => do
    let _ ← Run.lookup line name
    return .named name
  | .unary line op e => do
    let o ← e.operand held
    let v ← Run.lift line (op.apply (← o.read line))
    return .temporary (← Run.counted [o] v)
  | .binary line op left right => do
    let l ← left.operand held
    if op = .and ∨ op = .or then
      return .temporary (← Run.shortCircuit line op l (right.operand held))
    else
      let r ← right.operand (l.held ++ held)
      return .temporary (← Run.combine line op l r)
  | .call line name arguments => do
    match (← get).imported? name with
    | some t => do
      let args ← Expr.arguments held arguments
      return .temporary (← Run.construct line held t name (args.map (·.value)))
    | none =>
      match Builtin.ofName? name with
      | none => Run.fail line (.unknownFunction name)
      | some b =>
        if b.arity.admits arguments.length then do
          let args ← Expr.arguments held arguments
          return .temporary (← b.call line args)
        else Run.fail line (.argumentCount name)
  | .member line receiver method arguments => do
    let o ← receiver.operand held
    let v ← o.read line
    match v with
    | .object native id => do
      let args ← Expr.arguments (v :: held) arguments
      return .temporary (← Run.callObject line held native id method.text args)
    | _ => do
      let args ← Expr.arguments (o.held ++ held) arguments
      Run.callMember line o method (args.map (·.value))
  | .index line target position => do
    let o ← target.operand held
    let p ← position.operand (o.held ++ held)
    let i ← Run.lift line (← p.read position.line).integer?
    let c ← Run.lift line (Collection.ofValue? (← o.read line))
    return .temporary (← Run.lift line (c.get i))
  | .field line target position => do
    let o ← target.operand held
    let r ← Run.lift line (Row.ofValue? (← o.read line))
    return .temporary (← Run.lift line (r.field position))
  | .collection line elements => do
    let args ← Expr.arguments held elements
    let c ← Run.lift line (Collection.ofValues (args.map (·.value)))
    return .temporary c.value

/-- Evaluates expressions in order. -/
def Expr.arguments (held : List Value) : List Expr → Run (List Argument)
  | [] => pure []
  | e :: es => do
    let o ← e.operand held
    let v ← o.read e.line
    let args ← Expr.arguments (v :: held) es
    return ⟨v, e.variable?⟩ :: args

end

/-- The value of an expression. -/
def Expr.eval (held : List Value) (e : Expr) : Run Value := do
  let o ← e.operand held
  o.read e.line

end Crunch
