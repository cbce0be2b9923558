import Crunch.Exec
import Crunch.Proofs.Natives

/-!
# Crunch.Proofs.Writes

The variables that a statement names as targets.

* `Expr.root?`: the variable at the root of a chain of changing methods.
* `Expr.writes`, `Statement.writes`: names assigned to, roots of changing methods, and plain variables
  passed to `input` or to a native method, anywhere inside. `native` tells the methods, by name and
  number of arguments, that native types declare.
* `Statement.declared`: names declared in the scope around a statement.
* `Licence`: names that may be written, and methods that may be called with them as arguments.
-/

namespace Crunch

def Expr.root? : Expr → Option String
  | .var _ name => some name
  | .member _ receiver method _ => if method.isMutator then receiver.root? else none
  | _ => none

/-- The names of those expressions that are nothing but a variable. -/
def Expr.variableNames (es : List Expr) : List String := es.filterMap Expr.variable?

mutual

def Expr.writes (native : String → Nat → Bool) : Expr → List String
  | .constant _ _ => []
  | .var _ _ => []
  | .unary _ _ e => e.writes native
  | .binary _ _ left right => left.writes native ++ right.writes native
  | .call _ name arguments =>
    (if Builtin.ofName? name = some .input then Expr.variableNames arguments else []) ++ Expr.writesAll native arguments
  | .member _ receiver method arguments =>
    (if method.isMutator then receiver.root?.toList else []) ++
      ((if native method.text arguments.length then Expr.variableNames arguments else []) ++
        (receiver.writes native ++ Expr.writesAll native arguments))
  | .index _ target position => target.writes native ++ position.writes native
  | .field _ target _ => target.writes native
  | .collection _ elements => Expr.writesAll native elements

def Expr.writesAll (native : String → Nat → Bool) : List Expr → List String
  | [] => []
  | e :: es => e.writes native ++ Expr.writesAll native es

end

def Source.writes (native : String → Nat → Bool) : Source → List String
  | .elements e => e.writes native
  | .range start bound _ => start.writes native ++ bound.writes native

mutual

def Statement.writes (native : String → Nat → Bool) : Statement → List String
  | .expression _ e => e.writes native
  | .declare _ _ e => e.writes native
  | .assign _ name e => name :: e.writes native
  | .compound _ name _ e => name :: e.writes native
  | .choice _ branches otherwise =>
    Statement.writesBranches native branches ++ Statement.writesOptional native otherwise
  | .loop _ condition body => condition.writes native ++ Statement.writesAll native body
  | .each _ _ source body => source.writes native ++ Statement.writesAll native body
  | .raise _ _ => []
  | .attempt _ body handlers => Statement.writesAll native body ++ Statement.writesHandlers native handlers
  | .load _ _ => []

def Statement.writesAll (native : String → Nat → Bool) : List Statement → List String
  | [] => []
  | st :: rest => st.writes native ++ Statement.writesAll native rest

def Statement.writesBranches (native : String → Nat → Bool) : List (Expr × List Statement) → List String
  | [] => []
  | (condition, body) :: rest =>
    condition.writes native ++ (Statement.writesAll native body ++ Statement.writesBranches native rest)

def Statement.writesOptional (native : String → Nat → Bool) : Option (List Statement) → List String
  | none => []
  | some body => Statement.writesAll native body

def Statement.writesHandlers (native : String → Nat → Bool) : List (Handler Statement) → List String
  | [] => []
  | ⟨_, _, body⟩ :: rest => Statement.writesAll native body ++ Statement.writesHandlers native rest

end

/-- Names that a statement declares in the scope around it. -/
def Statement.declared : Statement → List String
  | .declare _ name _ => [name]
  | _ => []

/-- Names that statements declare in the scope around them. -/
def Statement.declaredAll (sts : List Statement) : List String := sts.flatMap Statement.declared

/-- Whether a native type that can be imported, or one of an object, declares a method. -/
def State.hasMethod (s : State) (name : String) (arity : Nat) : Bool :=
  s.types.any (fun t => (t.interface.findMethod? name arity).isSome) ||
    s.objects.any (fun o => (o.native.interface.findMethod? name arity).isSome)

/-! ## Licences -/

/-- Names of variables that may be written, native methods that may get them as arguments, and what is
known of native types. -/
structure Licence where
  names : String → Prop
  methods : String → Nat → Bool
  natives : NativeType → Prop

namespace Licence

/-- A native type that writes no more than a licence allows. -/
structure Admits (L : Licence) (t : NativeType) : Prop where
  native : L.natives t
  declares {name : String} {arity number : Nat} {m : Method} :
    t.interface.findMethod? name arity = some (number, m) → L.methods name arity = true
  stays {args : List Argument} (i : Instance) (method : Nat) :
    (∀ a ∈ args, a.Within L.names) → (t.invoke i method args).StaysIn L.names

/-- The licence for everything. -/
def any : Licence := ⟨fun _ => True, fun _ _ => true, fun _ => True⟩

theorem admits_any (t : NativeType) : any.Admits t := by
  constructor
  · trivial
  · intro _ _ _ _ _
    rfl
  · intro args i method _
    exact Action.staysIn_any _

theorem allNative_any (s : State) : s.AllNative any.Admits := by
  constructor
  · intro t _
    exact admits_any t
  · intro o _
    exact admits_any o.native

/-- The licence for some names, where native types store through their arguments only. -/
def confined (methods : String → Nat → Bool) (names : List String) : Licence :=
  ⟨(· ∈ names), methods, NativeType.Confined⟩

/-- Which names are allowed makes no difference to confined types. -/
theorem Admits.rename {methods : String → Nat → Bool} {names names' : List String} {t : NativeType}
    (h : (confined methods names).Admits t) : (confined methods names').Admits t := by
  constructor
  · exact h.native
  · intro name arity number m hf
    exact h.declares hf
  · intro args i method hargs
    exact NativeType.Confined.staysIn h.native hargs i method

theorem allNative_confined {s : State} (hs : s.AllNative NativeType.Confined) (names : List String) :
    s.AllNative (confined s.hasMethod names).Admits := by
  have hadmits : ∀ t : NativeType, t.Confined →
      (∀ name arity, (t.interface.findMethod? name arity).isSome = true → s.hasMethod name arity = true) →
        (confined s.hasMethod names).Admits t := by
    intro t ht hm
    constructor
    · exact ht
    · intro name arity number m hf
      exact hm name arity (Option.isSome_of_eq_some hf)
    · intro args i method hargs
      exact ht.staysIn hargs i method
  constructor
  · intro t ht
    refine hadmits t (hs.types t ht) fun name arity hm => ?_
    rw [State.hasMethod, Bool.or_eq_true]
    exact .inl (List.any_eq_true.mpr ⟨t, ht, hm⟩)
  · intro o ho
    refine hadmits o.native (hs.objects o ho) fun name arity hm => ?_
    rw [State.hasMethod, Bool.or_eq_true]
    exact .inr (List.any_eq_true.mpr ⟨o, ho, hm⟩)

end Licence
end Crunch
