import Crunch.Proofs.Run

/-!
# Crunch.Proofs.Visits

The expressions and statements that a run comes to, one after the other.

* `Phrase`: an expression or a statement. `Site`: a phrase, how deep it is nested, and whether it stands
  in the body of a loop. `Visit`: a site that a run has come to, and the state at that time.
* `Logged`: computations that also give the visits that they have made.
* `Expr.follow`, `Statement.follow`, `Program.follow`: evaluation with a visit of each phrase that is
  evaluated or carried out.
* `Expr.sites`, `Statement.sites`: the phrases of a statement in order, without those in loop bodies.
-/

namespace Crunch

/-- What can be evaluated or carried out. -/
inductive Phrase where
  | expression (e : Expr)
  | statement (st : Statement)

/-- A phrase where it stands. -/
structure Site where
  /-- How many phrases there are around it. -/
  depth : Nat
  /-- Whether the body of a loop is around it. -/
  inLoop : Bool
  phrase : Phrase

/-- A site that a run has come to, with the values in use around it and the state at that time. -/
structure Visit where
  site : Site
  held : List Value
  state : State

/-- Computations on a state that give the visits that they make. -/
def Logged (α : Type) : Type := State → List Visit × EStateM.Result (Halt Fault) State α

namespace Logged

variable {α β : Type}

instance : Monad Logged where
  pure a := fun s => ([], .ok a s)
  bind x f := fun s =>
    match x s with
    | (vs, .ok a t) => (vs ++ (f a t).1, (f a t).2)
    | (vs, .error e t) => (vs, .error e t)

/-- A computation that makes no visit. -/
def quietly (x : Run α) : Logged α := fun s => ([], x s)

instance : MonadLift Run Logged := ⟨quietly⟩

/-- The visits from a state. -/
def visits (x : Logged α) (s : State) : List Visit := (x s).1

/-- What is computed, without the visits. -/
def run (x : Logged α) : Run α := fun s => (x s).2

/-- Comes to a site. -/
def visit (site : Site) (held : List Value) : Logged Unit := fun s => ([⟨site, held, s⟩], .ok () s)

/-- A computation whose result is changed, with the same visits from another state. -/
def around (enter : State → State) (f : Run α → Run β) (x : Logged α) : Logged β := fun s =>
  (x.visits (enter s), f x.run s)

/-- `Run.nested` with visits. -/
def nested (x : Logged α) : Logged α :=
  around (fun s => { s with scopes := [] :: s.scopes }) Run.nested x

/-- `Run.failure?` with visits. -/
def failure? (x : Logged Unit) : Logged (Option Fault) := around id Run.failure? x

/-- `Run.shortCircuit` with visits. -/
def shortCircuit (line : Nat) (op : BinaryOp) (l : Operand) (right : Logged Operand) : Logged Value := do
  let v ← l.read line
  let a ← Run.lift line (Operation.truth op v)
  match Operation.decided op a with
  | some b => return .boolean b
  | none => do
    let r ← right
    let _ ← l.read line
    let w ← r.read line
    let b ← Run.lift line (Operation.truth op w)
    Run.counted [l, r] (Operation.ofTruth (Operation.connective op a b))

/-- `Run.repeatWhile` with visits. -/
def repeatWhile (line : Nat) (condition : Logged Value) (body : Logged Unit) : Nat → Logged Unit
  | 0 => quietly (throw .outOfFuel)
  | passes + 1 => do
    Run.checkStop line
    let v ← condition
    if ← Run.lift line v.condition then
      body
      repeatWhile line condition body passes

/-- `Run.pass` with visits. -/
def pass (line : Nat) (name : String) (v : Value) (body : Logged Unit) : Logged Unit := do
  Run.checkStop line
  nested do
    Run.define name v
    nested body

/-- `Run.eachInteger` with visits. -/
def eachInteger (line : Nat) (name : String) (body : Logged Unit) : Nat → Int64 → Logged Unit
  | 0, _ => pure ()
  | n + 1, i => do
    pass line name (.integer i) body
    eachInteger line name body n (i + 1)

/-- `Run.eachValue` with visits. -/
def eachValue (line : Nat) (name : String) (body : List Value → Logged Unit) : List Value → Logged Unit
  | [] => pure ()
  | v :: rest => do
    pass line name v (body rest)
    eachValue line name body rest

end Logged

/-! ## Evaluation with visits -/

open Logged

mutual

/-- `Expr.operand` with visits. -/
def Expr.follow (depth : Nat) (inLoop : Bool) (held : List Value) (e : Expr) : Logged Operand := do
  visit ⟨depth, inLoop, .expression e⟩ held
  match e with
  | .constant _ c => pure (.temporary (Value.ofConstant c))
  | .var line name => do
    let _ ← Run.lookup line name
    return .named name
  | .unary line op e => do
    let o ← e.follow (depth + 1) inLoop held
    let v ← o.read line
    let v ← Run.lift line (op.apply v)
    let v ← Run.counted [o] v
    return .temporary v
  | .binary line op left right => do
    let l ← left.follow (depth + 1) inLoop held
    if op = .and ∨ op = .or then
      let v ← shortCircuit line op l (right.follow (depth + 1) inLoop held)
      return .temporary v
    else
      let r ← right.follow (depth + 1) inLoop (l.held ++ held)
      let v ← Run.combine line op l r
      return .temporary v
  | .call line name arguments => do
    let s ← quietly get
    match s.imported? name with
    | some t => do
      let args ← Expr.followAll (depth + 1) inLoop held arguments
      let v ← Run.construct line held t name (args.map (·.value))
      return .temporary v
    | none =>
      match Builtin.ofName? name with
      | none => quietly (Run.fail line (.unknownFunction name))
      | some b =>
        if b.arity.admits arguments.length then do
          let args ← Expr.followAll (depth + 1) inLoop held arguments
          let v ← b.call line args
          return .temporary v
        else quietly (Run.fail line (.argumentCount name))
  | .member line receiver method arguments => do
    let o ← receiver.follow (depth + 1) inLoop held
    let v ← o.read line
    match v with
    | .object native id => do
      let args ← Expr.followAll (depth + 1) inLoop (v :: held) arguments
      let v ← Run.callObject line held native id method.text args
      return .temporary v
    | _ => do
      let args ← Expr.followAll (depth + 1) inLoop (o.held ++ held) arguments
      Run.callMember line o method (args.map (·.value))
  | .index line target position => do
    let o ← target.follow (depth + 1) inLoop held
    let p ← position.follow (depth + 1) inLoop (o.held ++ held)
    let v ← p.read position.line
    let i ← Run.lift line v.integer?
    let v ← o.read line
    let c ← Run.lift line (Collection.ofValue? v)
    let v ← Run.lift line (c.get i)
    return .temporary v
  | .field line target position => do
    let o ← target.follow (depth + 1) inLoop held
    let v ← o.read line
    let r ← Run.lift line (Row.ofValue? v)
    let v ← Run.lift line (r.field position)
    return .temporary v
  | .collection line elements => do
    let args ← Expr.followAll (depth + 1) inLoop held elements
    let c ← Run.lift line (Collection.ofValues (args.map (·.value)))
    return .temporary c.value

/-- `Expr.arguments` with visits. -/
def Expr.followAll (depth : Nat) (inLoop : Bool) (held : List Value) : List Expr → Logged (List Argument)
  | [] => pure []
  | e :: es => do
    let o ← e.follow depth inLoop held
    let v ← o.read e.line
    let args ← Expr.followAll depth inLoop (v :: held) es
    return ⟨v, e.variable?⟩ :: args

end

/-- `Expr.eval` with visits. -/
def Expr.followEval (depth : Nat) (inLoop : Bool) (held : List Value) (e : Expr) : Logged Value := do
  let o ← e.follow depth inLoop held
  o.read e.line

mutual

/-- `Statement.exec` with visits. -/
def Statement.follow (depth : Nat) (inLoop : Bool) (held : List Value) (passes : Nat) (st : Statement) :
    Logged (Option Value) := do
  visit ⟨depth, inLoop, .statement st⟩ held
  match st with
  | .expression _ e => do
    let v ← e.followEval (depth + 1) inLoop held
    return some v
  | .declare _ name e => do
    let v ← e.followEval (depth + 1) inLoop held
    Run.define name v
    return none
  | .assign line name e => do
    let v ← e.followEval (depth + 1) inLoop held
    Run.store line name v
    return none
  | .compound line name op e => do
    let r ← e.follow (depth + 1) inLoop held
    let v ← Run.combine line op (.named name) r
    Run.store line name v
    return none
  | .choice line branches otherwise => do
    Statement.followBranches (depth + 1) inLoop held passes line
      (Statement.followOptional (depth + 1) inLoop held passes otherwise) branches
    return none
  | .loop line condition body => do
    repeatWhile line (condition.followEval (depth + 1) inLoop held)
      (nested (Statement.followAll (depth + 1) true held passes body)) passes
    return none
  | .each line name source body => do
    match source with
    | .range start bound inclusive => do
      let v ← start.followEval (depth + 1) inLoop held
      let a ← Run.lift line v.integer?
      let w ← bound.followEval (depth + 1) inLoop held
      let b ← Run.lift line w.integer?
      eachInteger line name (Statement.followAll (depth + 1) true held passes body) (Run.rangeSize a b inclusive) a
      return none
    | .elements e => do
      let v ← e.followEval (depth + 1) inLoop held
      let c ← Run.lift line (Collection.ofValue? v)
      eachValue line name (fun rest => Statement.followAll (depth + 1) true (rest ++ held) passes body) c.items
      return none
  | .raise line name => quietly (Run.fail line (.raised name))
  | .attempt _ body handlers => do
    let f? ← failure? (nested (Statement.followAll (depth + 1) inLoop held passes body))
    match f? with
    | none => return none
    | some f =>
      match findHandler? f.name (Statement.followHandlers (depth + 1) inLoop held passes handlers) with
      | none => quietly (throw (.error f))
      | some handler => do
        nested do
          Run.define errorVariable (.literal f.message)
          handler
        return none
  | .load line name => do
    Run.importType line name
    return none

/-- `Statement.execAll` with visits. -/
def Statement.followAll (depth : Nat) (inLoop : Bool) (held : List Value) (passes : Nat) :
    List Statement → Logged Unit
  | [] => pure ()
  | st :: rest => do
    let _ ← st.follow depth inLoop held passes
    Statement.followAll depth inLoop held passes rest

/-- `Statement.execBranches` with visits. -/
def Statement.followBranches (depth : Nat) (inLoop : Bool) (held : List Value) (passes line : Nat)
    (otherwise : Logged Unit) : List (Expr × List Statement) → Logged Unit
  | [] => otherwise
  | (condition, body) :: rest => do
    let v ← condition.followEval depth inLoop held
    if ← Run.lift line v.condition then nested (Statement.followAll depth inLoop held passes body)
    else Statement.followBranches depth inLoop held passes line otherwise rest

/-- `Statement.execOptional` with visits. -/
def Statement.followOptional (depth : Nat) (inLoop : Bool) (held : List Value) (passes : Nat) :
    Option (List Statement) → Logged Unit
  | none => pure ()
  | some body => nested (Statement.followAll depth inLoop held passes body)

/-- `Statement.execHandlers` with visits. -/
def Statement.followHandlers (depth : Nat) (inLoop : Bool) (held : List Value) (passes : Nat) :
    List (Handler Statement) → List (String × Logged Unit)
  | [] => []
  | ⟨name, _, body⟩ :: rest =>
    (name, Statement.followAll depth inLoop held passes body) ::
      Statement.followHandlers depth inLoop held passes rest

end

/-- `Program.execFrom` with visits. -/
def Program.followFrom (held : List Value) (passes : Nat) (last : Option Value) : Program → Logged (Option Value)
  | [] => pure last
  | st :: rest => do
    let v ← st.follow 0 false (last.toList ++ held) passes
    Program.followFrom held passes (v.or last) rest

/-- `Program.exec` with visits. -/
def Program.follow (passes : Nat) (p : Program) : Logged (Option Value) := p.followFrom [] passes none

/-! ## Phrases in order -/

mutual

/-- The expressions that an expression is made of, itself first. -/
def Expr.sites (depth : Nat) (inLoop : Bool) (e : Expr) : List Site :=
  ⟨depth, inLoop, .expression e⟩ ::
    match e with
    | .constant _ _ | .var _ _ => []
    | .unary _ _ e | .field _ e _ => e.sites (depth + 1) inLoop
    | .binary _ _ left right | .index _ left right =>
      left.sites (depth + 1) inLoop ++ right.sites (depth + 1) inLoop
    | .call _ _ es | .collection _ es => Expr.sitesAll (depth + 1) inLoop es
    | .member _ receiver _ es => receiver.sites (depth + 1) inLoop ++ Expr.sitesAll (depth + 1) inLoop es

def Expr.sitesAll (depth : Nat) (inLoop : Bool) : List Expr → List Site
  | [] => []
  | e :: es => e.sites depth inLoop ++ Expr.sitesAll depth inLoop es

end

def Source.sites (depth : Nat) (inLoop : Bool) : Source → List Site
  | .elements e => e.sites depth inLoop
  | .range start bound _ => start.sites depth inLoop ++ bound.sites depth inLoop

mutual

/-- The expressions and statements that a statement is made of, itself first, but for the bodies of loops. -/
def Statement.sites (depth : Nat) (inLoop : Bool) (st : Statement) : List Site :=
  ⟨depth, inLoop, .statement st⟩ ::
    match st with
    | .expression _ e | .declare _ _ e | .assign _ _ e | .compound _ _ _ e | .loop _ e _ =>
      e.sites (depth + 1) inLoop
    | .choice _ branches otherwise =>
      Statement.sitesBranches (depth + 1) inLoop branches ++ Statement.sitesOptional (depth + 1) inLoop otherwise
    | .each _ _ source _ => source.sites (depth + 1) inLoop
    | .attempt _ body handlers =>
      Statement.sitesAll (depth + 1) inLoop body ++ Statement.sitesHandlers (depth + 1) inLoop handlers
    | .raise _ _ | .load _ _ => []

def Statement.sitesAll (depth : Nat) (inLoop : Bool) : List Statement → List Site
  | [] => []
  | st :: rest => st.sites depth inLoop ++ Statement.sitesAll depth inLoop rest

def Statement.sitesBranches (depth : Nat) (inLoop : Bool) : List (Expr × List Statement) → List Site
  | [] => []
  | (condition, body) :: rest =>
    condition.sites depth inLoop ++ (Statement.sitesAll depth inLoop body ++
      Statement.sitesBranches depth inLoop rest)

def Statement.sitesOptional (depth : Nat) (inLoop : Bool) : Option (List Statement) → List Site
  | none => []
  | some body => Statement.sitesAll depth inLoop body

def Statement.sitesHandlers (depth : Nat) (inLoop : Bool) : List (Handler Statement) → List Site
  | [] => []
  | ⟨_, _, body⟩ :: rest => Statement.sitesAll depth inLoop body ++ Statement.sitesHandlers depth inLoop rest

end

/-- The expressions and statements of a script, but for those in the bodies of loops. -/
def Program.sites (p : Program) : List Site := Statement.sitesAll 0 false p

end Crunch
