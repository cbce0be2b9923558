import Crunch.Pattern.Bundled
import Crunch.Proofs.Reach

/-!
# Crunch.Proofs.Callee

What a call stands for, to the check and to the run.

* `Callee`: the constructor of a native type or a function.
* `Env.callee?`, `State.callee?`: what the check and the run take a name for.
* `Check.call_callee`, `Expr.operand_uncalled`, `Expr.operand_builtin`, `Expr.operand_constructor`: a call
  is checked and evaluated by its callee.
* `Env.Linked`: the check knows the native types of the state, and its imports where they count.
* `Program.callees_agree`: check and run agree at a point exactly if imports do. They do at every point if
  blocks only import what has been imported before them, and then no function is unknown.
-/

namespace Crunch

open Run

/-- What a call stands for. -/
inductive Callee where
  | constructor (i : Interface)
  | builtin (b : Builtin)

/-- What the check takes a name for. -/
def Env.callee? (env : Env) (name : String) : Option Callee :=
  match env.imported? name with
  | some i => some (.constructor i)
  | none => (Builtin.ofName? name).map .builtin

/-- What the run takes a name for. -/
def State.callee? (s : State) (name : String) : Option Callee :=
  match s.imported? name with
  | some t => some (.constructor t.interface)
  | none => (Builtin.ofName? name).map .builtin

/-! ## Calls by their callees -/

theorem Check.call_callee (env : Env) (line : Nat) (name : String) (types : List Ty) (assignable : List Bool) :
    Check.call env line name types assignable =
      match env.callee? name with
      | some (.constructor i) =>
        match i.findConstructor? types.length with
        | none => Rejection.reject line (.argumentCount name types.length)
        | some n => (params line name (i.constructors.getD n []) types assignable).map fun _ => Ty.object name
      | some (.builtin b) => function line b types assignable
      | none => Rejection.reject line (.unknownFunction name) := by
  unfold Check.call Env.callee?
  cases env.imported? name with
  | some i =>
    simp only
    cases i.findConstructor? types.length with
    | none => rfl
    | some n =>
      simp only
      cases params line name (i.constructors.getD n []) types assignable <;> rfl
  | none => cases Builtin.ofName? name <;> rfl

section Evaluated

variable {held : List Value} {line : Nat} {name : String} {es : List Expr} {s : State}

theorem Expr.operand_uncalled (h : s.callee? name = none) :
    (Expr.call line name es).operand held s = .error (.error ⟨line, .unknownFunction name⟩) s := by
  unfold State.callee? at h
  cases hs : s.imported? name with
  | some t =>
    rw [hs] at h
    cases h
  | none =>
    rw [hs, Option.map_eq_none_iff] at h
    rw [Expr.operand, bind_of_ok (x := get) (a := s) (t := s) rfl]
    simp only [hs, h]
    rfl

theorem Expr.operand_builtin {b : Builtin} (h : s.callee? name = some (.builtin b)) :
    (Expr.call line name es).operand held s =
      (if b.arity.admits es.length then do
        let args ← Expr.arguments held es
        return .temporary (← b.call line args)
      else Run.fail line (.argumentCount name) : Run Operand) s := by
  unfold State.callee? at h
  cases hs : s.imported? name with
  | some t =>
    rw [hs] at h
    cases h
  | none =>
    rw [hs, Option.map_eq_some_iff] at h
    obtain ⟨b', hb, he⟩ := h
    cases he
    rw [Expr.operand, bind_of_ok (x := get) (a := s) (t := s) rfl]
    simp only [hs, hb]

theorem Expr.operand_constructor {i : Interface} (h : s.callee? name = some (.constructor i)) :
    ∃ t : NativeType, s.type? name = some t ∧ t.interface = i ∧
      (Expr.call line name es).operand held s = (do
        let args ← Expr.arguments held es
        return .temporary (← Run.construct line held t name (args.map (·.value))) : Run Operand) s := by
  unfold State.callee? at h
  cases hs : s.imported? name with
  | some t =>
    rw [hs] at h
    cases h
    refine ⟨t, ?_, rfl, ?_⟩
    · unfold State.imported? at hs
      split at hs
      · exact hs
      · cases hs
    · rw [Expr.operand, bind_of_ok (x := get) (a := s) (t := s) rfl]
      simp only [hs]
  | none =>
    rw [hs, Option.map_eq_some_iff] at h
    obtain ⟨b, -, he⟩ := h
    cases he

end Evaluated

/-! ## Native types and imports of a run -/

/-- Whether a function of some name is not known. -/
def Fault.Cause.IsUnknownFunction (c : Fault.Cause) : Prop := ∃ name, c = .unknownFunction name

/-- The check knows the native types of a state. Imports are the same if `I` holds. -/
structure Env.Linked (I : Prop) (bad : Fault.Cause → Prop) (env : Env) (s : State) : Prop where
  interfaces : env.interfaces = s.types.map (·.interface)
  imports : I → env.imports = s.imports
  tame : s.Tame bad

namespace Env.Linked

variable {I : Prop} {bad : Fault.Cause → Prop} {env : Env} {s : State} {name : String}

theorem interface? (h : env.Linked I bad s) (name : String) :
    env.interface? name = (s.type? name).map (·.interface) := by
  rw [Env.interface?, h.interfaces, List.find?_map]
  rfl

/-- Check and run take a name for the same exactly if they agree on whether its native type, if there
is one, has been imported. -/
theorem callee_iff (h : env.Linked I bad s) : s.callee? name = env.callee? name ↔
    ((s.type? name).isSome = true → (name ∈ env.imports ↔ name ∈ s.imports)) := by
  -- A function is no constructor, so where only one of the two sees an import they differ.
  have hne (i : Interface) : (Builtin.ofName? name).map Callee.builtin ≠ some (.constructor i) := by
    cases Builtin.ofName? name <;> nofun
  unfold State.callee? Env.callee? State.imported? Env.imported?
  rw [h.interface? name]
  simp only [List.contains_iff_mem]
  cases s.type? name with
  | none => simp
  | some t =>
    by_cases he : name ∈ env.imports <;> by_cases hs : name ∈ s.imports
    · simp only [he, hs, if_true, Option.map_some, implies_true]
    · simp only [he, hs, if_true, if_false, Option.map_some, Option.isSome_some, iff_false, not_true, forall_const]
      exact hne _
    · simp only [he, hs, if_true, if_false, Option.map_some, Option.isSome_some, false_iff, not_true, forall_const]
      exact iff_of_false (hne _).symm id
    · simp only [he, hs, if_false, implies_true]

end Env.Linked

theorem Env.invariant_linked {I : Prop} {bad : Fault.Cause → Prop}
    (hbad : ∀ c, bad c → I ∧ c.IsUnknownFunction) : Invariant I bad (Env.Linked I bad) where
  unknown h := by
    obtain ⟨-, name, rfl⟩ := hbad _ h
    rfl
  tame h := h.tame
  congr h _ ht hi htame := ⟨ht ▸ h.interfaces, fun hI => hi ▸ h.imports hI, htame⟩
  like hl h := ⟨hl.interfaces ▸ h.interfaces, fun hI => (hl.imports hI).symm.trans (h.imports hI), h.tame⟩
  known _ hb _ := by
    obtain ⟨-, name, hname⟩ := hbad _ hb
    cases hname
  callee {env s line name types assignable t} h hcall hs hb hbad' := by
    -- What the run takes for nothing the check takes for nothing as well, and it has been let through.
    have hI := (hbad _ hbad').1
    have hc : s.callee? name = env.callee? name := h.callee_iff.mpr fun _ => by rw [h.imports hI]
    have hnone : s.callee? name = none := by
      unfold State.callee?
      rw [hs, hb]
      rfl
    rw [Check.call_callee, ← hc, hnone] at hcall
    cases hcall
  write h _ := ⟨h.interfaces, h.imports, h.tame.types, h.tame.objects⟩
  declare h := ⟨h.interfaces, h.imports, h.tame.types, h.tame.objects⟩
  enter h := ⟨h.interfaces, h.imports, h.tame.types, h.tame.objects⟩
  leave h := ⟨h.interfaces, h.imports, h.tame.types, h.tame.objects⟩
  load {env env' s line name} h hl := by
    obtain ⟨hi, rfl⟩ := Env.importType_ok hl
    rw [h.interface? name, Option.isSome_map] at hi
    obtain ⟨t, ht⟩ := Option.isSome_iff_exists.mp hi
    simp only [Run.importType, ends_bind, ends_get, ht]
    refine ⟨h.interfaces, fun hI => ?_, h.tame.types, h.tame.objects⟩
    simp only [h.imports hI]

/-! ## Scripts -/

/-- Where no cause is bad, every method keeps to its arguments. -/
theorem Action.tame_of_none (args : List Argument) (a : Action) : a.Tame (fun _ => False) args := by
  induction a with
  | done v => trivial
  | fail c => exact id
  | keep i next ih => exact ih
  | store into v next ih => exact ⟨fun _ _ h => h.elim, fun r _ => ih r⟩
  | call object method given next ih => exact ⟨fun _ _ _ _ h => h.elim, fun r _ => ih r⟩
  | look next ih => exact ih
  | write d next ih => exact ih

theorem State.tame_of_none (s : State) : s.Tame fun _ => False :=
  have h (t : NativeType) : t.Tame fun _ => False := ⟨fun _ _ _ _ _ => id, fun _ _ _ => Action.tame_of_none _ _⟩
  ⟨fun t _ => h t, fun o _ => h o.native⟩

theorem Session.linked {I : Prop} {bad : Fault.Cause → Prop} {s : State} (ht : s.Tame bad) :
    (Session.env s).Linked I bad s := ⟨rfl, fun _ => rfl, ht⟩

/-- At every point of a run of a script that the check lets through, check and run take a name for the
same callee exactly if they agree on whether its native type has been imported. If the blocks of the
script only import what has been imported before them, they always agree, and if moreover no native type
makes up such an error, no function is unknown, whether a handler takes the error or not. -/
theorem Program.callees_agree {s : State} {p : Program} {env : Env} (h : p.check (Session.env s) = .ok env) :
    (∀ q, Point.Within ⟨Session.env s, .block p, s⟩ q → ∀ name,
      (q.state.callee? name = q.env.callee? name ↔
        ((q.state.type? name).isSome = true → (name ∈ q.env.imports ↔ name ∈ q.state.imports)))) ∧
    (p.importsEarly (Session.env s) = true →
      (∀ q, Point.Within ⟨Session.env s, .block p, s⟩ q → ∀ name, q.state.callee? name = q.env.callee? name) ∧
      (s.Tame Fault.Cause.IsUnknownFunction →
        (∀ passes e t, p.exec passes s = .error e t → e.Avoids Fault.Cause.IsUnknownFunction) ∧
          ∀ q, Point.Within ⟨Session.env s, .block p, s⟩ q → q.Avoids Fault.Cause.IsUnknownFunction)) := by
  refine ⟨fun q hq name => ?_, fun hearly => ⟨fun q hq name => ?_, fun ht => ?_⟩⟩
  · have hI := Env.invariant_linked (I := False) fun _ h => False.elim h
    have hfit := (hI.within hq (Session.linked s.tame_of_none) ⟨⟨env, h⟩, nofun⟩).1
    exact hfit.callee_iff
  · have hI := Env.invariant_linked (I := True) fun _ h => False.elim h
    have hfit := (hI.within hq (Session.linked s.tame_of_none) ⟨⟨env, h⟩, fun _ => hearly⟩).1
    exact hfit.callee_iff.mpr fun _ => by rw [hfit.imports trivial]
  · have hI := Env.invariant_linked (I := True) fun _ (hc : Fault.Cause.IsUnknownFunction _) => ⟨trivial, hc⟩
    refine ⟨fun passes e t hx => ?_, fun q hq => ?_⟩
    · exact (ends_of_error hx).mp (hI.execFrom h (fun _ => hearly) (Session.linked ht))
    · obtain ⟨hq, hchecked⟩ := hI.within hq (Session.linked ht) ⟨⟨env, h⟩, fun _ => hearly⟩
      exact hI.point hq hchecked

/-- A block that imports a type once more and constructs an object of it. -/
theorem Program.callees_agree_again :
    let call : Expr := .call 4 "csv" []
    let p : Program := [.load 1 "csv",
      .choice 2 [(.constant 2 (.boolean true), [.load 3 "csv", .expression 4 call])] none]
    let s : State := State.fresh .bundled ⟨[], 0, []⟩ [] ⟨[], []⟩
    let env₁ : Env := { Session.env s with imports := ["csv"] }
    let s₁ : State := { s with imports := ["csv"] }
    let q : Point := ⟨env₁.enter, .expression call, s₁.enter⟩
    p.importsEarly (Session.env s) = true ∧ Point.Within ⟨Session.env s, .block p, s⟩ q ∧
      q.env.callee? "csv" = some (.constructor Csv.interface) ∧ q.state.callee? "csv" = q.env.callee? "csv" ∧
      s.Tame Fault.Cause.IsUnknownFunction ∧ q.Avoids Fault.Cause.IsUnknownFunction := by
  intro call p s env₁ s₁ q
  have hcheck : ∃ env, p.check (Session.env s) = .ok env := ⟨_, rfl⟩
  have hearly : p.importsEarly (Session.env s) = true := rfl
  have ht : s.Tame Fault.Cause.IsUnknownFunction := by
    refine State.tame_fresh (fun c hc => ?_) .bundled ⟨[], 0, []⟩ [] ⟨[], []⟩
    obtain ⟨name, rfl⟩ := hc
    rfl
  have hload : (Statement.load 1 "csv").exec [] 0 s = .ok none s₁ := rfl
  have hcondition : (Expr.constant 2 (.boolean true)).eval [] s₁ = .ok (.boolean true) s₁ := rfl
  have hagain : (Statement.load 3 "csv").exec [] 0 s₁.enter = .ok none s₁.enter := rfl
  have hchoice : Point.Within ⟨Session.env s, .block p, s⟩
      ⟨env₁, .branches 2 [(.constant 2 (.boolean true), [.load 3 "csv", .expression 4 call])] none, s₁⟩ :=
    ((Point.Within.refl.step (.next hload rfl)).step .head).step .choice
  have hcall : Point.Within ⟨Session.env s, .block p, s⟩ ⟨env₁.enter, .block [.expression 4 call], s₁.enter⟩ :=
    (hchoice.step (.taken hcondition)).step (.next hagain rfl)
  have hwithin : Point.Within ⟨Session.env s, .block p, s⟩ q := ((hcall.step .head).step .ofStatement).step .first
  obtain ⟨env, h⟩ := hcheck
  obtain ⟨hagree, havoids⟩ := (Program.callees_agree h).2 hearly
  exact ⟨hearly, hwithin, rfl, hagree q hwithin "csv", ht, (havoids ht).2 q hwithin⟩

/-- An import in a block that is not carried out counts for the check and not for the run. -/
theorem Program.import_passed_strays :
    let call : Expr := .call 4 "csv" []
    let p : Program := [.choice 1 [(.constant 1 (.boolean false), [.load 2 "csv"])] none, .expression 4 call]
    let s : State := State.fresh .bundled ⟨[], 0, []⟩ [] ⟨[], []⟩
    let q : Point := ⟨{ Session.env s with imports := ["csv"] }, .expression call, s⟩
    (∃ env, p.check (Session.env s) = .ok env) ∧ Point.Within ⟨Session.env s, .block p, s⟩ q ∧
      q.env.callee? "csv" = some (.constructor Csv.interface) ∧ q.state.callee? "csv" = none ∧
      p.exec 0 s = .error (.error ⟨4, .unknownFunction "csv"⟩) s := by
  intro call p s q
  have hpassed : (Statement.choice 1 [(.constant 1 (.boolean false), [.load 2 "csv"])] none).exec [] 0 s = .ok none s :=
    rfl
  have hnext : Point.Within ⟨Session.env s, .block p, s⟩
      ⟨{ Session.env s with imports := ["csv"] }, .block [.expression 4 call], s⟩ :=
    Point.Within.refl.step (.next hpassed rfl)
  exact ⟨⟨_, rfl⟩, ((hnext.step .head).step .ofStatement).step .first, rfl, rfl, rfl⟩

end Crunch
