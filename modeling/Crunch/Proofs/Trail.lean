import Crunch.Proofs.Cache
import Crunch.Proofs.Run
import Crunch.Proofs.Scope
import Crunch.Proofs.Writes

/-!
# Crunch.Proofs.Trail

What a run does to a state, one step after the other.

* `Slot.Writes`: what a store or a method makes of a variable.
* `Trail`: the steps of a run. A step writes a variable, declares one in the innermost scope, gives
  up, builds or changes objects, or touches neither variables nor objects. Scopes that are opened and
  objects that become busy on the way are closed and free at the end.
* `Trail.stopped`, `Trail.patterns`: no step touches the flag for the end of the script, and the cache
  of patterns is only asked for patterns.
* `Run.Traces`: a computation that goes along a trail, however it ends.
* `Expr.traces_operand`, `Statement.traces_exec`: all expressions and statements do. They write the
  variables in `Expr.writes` and `Statement.writes` and declare those in `Statement.declared`.
* `Statement.trail_of_error`, `Program.traces`: a statement that fails declares nothing, and a script
  that fails has declared the names of the statements before.
-/

namespace Crunch

/-- What a write makes of a variable. A method that fails may have changed the value. -/
inductive Slot.Writes (slot : Slot) : Slot → Prop where
  | store {v : Value} {slot' : Slot} : slot.store v = .ok slot' → slot.Writes slot'
  | mutate {m : Member} {args : List Value} {w : Value} :
      slot.value.mutate m args = (w, .ok ()) → slot.Writes (slot.withValue w)
  | spoil {m : Member} {args : List Value} {w : Value} {c : Fault.Cause} :
      slot.value.mutate m args = (w, .error c) → slot.Writes { slot with value := w }

namespace State

/-- The state with a new innermost scope. -/
def enter (s : State) : State := { s with scopes := [] :: s.scopes }

/-- The state without its innermost scope. -/
def leave (s : State) : State := { s with scopes := s.scopes.drop 1 }

/-- The state with a variable declared in the innermost scope. -/
def declare (s : State) (name : String) (v : Value) : State :=
  { s with scopes := s.scopes.define name (Slot.ofValue v) }

/-- The state with another value or type of a variable. -/
def write (s : State) (name : String) (slot : Slot) : State := { s with scopes := s.scopes.update name slot }

/-- The state with a new object, after its constructor has used the disk. -/
def build (s : State) (t : NativeType) (contents : Instance) (disk : Disk) : State :=
  { s with
    disk := disk
    objects := s.objects ++ [Object.mk s.nextId t contents false]
    nextId := s.nextId + 1 }

/-- The state with another instance in an object. -/
def keep (s : State) (id : Nat) (contents : Instance) : State :=
  { s with objects := s.objects.map fun o => if o.id = id then { o with contents := contents } else o }

/-- A state with the same variables, native types and objects, and with the same flag for the end. Its
cache of patterns may have been asked for further ones. -/
structure Beside (s t : State) : Prop where
  scopes : t.scopes = s.scopes
  types : t.types = s.types
  stopped : t.stopped = s.stopped
  objects : t.objects = s.objects
  nextId : t.nextId = s.nextId
  released : t.released = s.released
  patterns : s.patterns.Leads t.patterns

theorem Beside.refl (s : State) : s.Beside s := ⟨rfl, rfl, rfl, rfl, rfl, rfl, .refl⟩

theorem Beside.trans {s t u : State} (h : s.Beside t) (h' : t.Beside u) : s.Beside u :=
  ⟨h'.scopes.trans h.scopes, h'.types.trans h.types, h'.stopped.trans h.stopped, h'.objects.trans h.objects,
    h'.nextId.trans h.nextId, h'.released.trans h.released, h.patterns.trans h'.patterns⟩

end State

/-- The steps of a run. `D` tells the names that may be declared in the innermost scope. -/
inductive Trail (L : Licence) : (String → Prop) → State → State → Prop where
  | refl {D : String → Prop} {s : State} : Trail L D s s
  | trans {D : String → Prop} {s t u : State} : Trail L D s t → Trail L D t u → Trail L D s u
  | write {D : String → Prop} {s : State} {name : String} {slot slot' : Slot} :
      L.names name → s.scopes.find? name = some slot → slot.Writes slot' → Trail L D s (s.write name slot')
  | declare {D : String → Prop} {s : State} {name : String} {v : Value} :
      D name → Trail L D s (s.declare name v)
  | nest {D B : String → Prop} {s t : State} : Trail L B s.enter t → Trail L D s t.leave
  | sweep {D : String → Prop} {s : State} {held : List Value} : Trail L D s (Heap.swept held s)
  | build {D : String → Prop} {s : State} {t : NativeType} {contents : Instance} {disk : Disk} :
      L.Admits t → Trail L D s (s.build t contents disk)
  | keep {D : String → Prop} {s : State} {id : Nat} {contents : Instance} : Trail L D s (s.keep id contents)
  | busy {D : String → Prop} {s t : State} {id : Nat} :
      Trail L D (Heap.marked id true s) t → Trail L D s (Heap.marked id false t)
  | aside {D : String → Prop} {s t : State} : s.Beside t → Trail L D s t

namespace Trail

variable {L : Licence} {D D' : String → Prop} {s t : State}

theorem mono (hD : ∀ n, D n → D' n) (h : Trail L D s t) : Trail L D' s t := by
  induction h generalizing D' with
  | refl => exact .refl
  | trans _ _ ih₁ ih₂ => exact .trans (ih₁ hD) (ih₂ hD)
  | write hn hf hs => exact .write hn hf hs
  | declare hn => exact .declare (hD _ hn)
  | nest hp _ => exact .nest hp
  | sweep => exact .sweep
  | build ht => exact .build ht
  | keep => exact .keep
  | busy _ ih => exact .busy (ih hD)
  | aside hb => exact .aside hb

/-- No step brings in a native type that the licence does not admit. -/
theorem allNative (h : Trail L D s t) (hs : s.AllNative L.Admits) : t.AllNative L.Admits := by
  induction h with
  | refl => exact hs
  | trans _ _ ih₁ ih₂ => exact ih₂ (ih₁ hs)
  | write _ _ _ => exact hs.same rfl rfl
  | declare _ => exact hs.same rfl rfl
  | nest _ ih => exact (ih (hs.same rfl rfl)).same rfl rfl
  | sweep => exact hs.swept _
  | build ht =>
    refine ⟨hs.types, fun o ho => ?_⟩
    rcases List.mem_append.mp ho with ho | ho
    · exact hs.objects o ho
    · rw [List.mem_singleton.mp ho]
      exact ht
  | keep => exact hs.mapped fun o => by split <;> rfl
  | busy _ ih =>
    have hmark : ∀ {u : State} (id : Nat) (b : Bool), u.AllNative L.Admits →
        (Heap.marked id b u).AllNative L.Admits := fun id b hu => hu.mapped fun o => by split <;> rfl
    exact hmark _ false (ih (hmark _ true hs))
  | aside hb => exact hs.same hb.types hb.objects

/-- No step touches the flag for the end of the script. -/
theorem stopped (h : Trail L D s t) : t.stopped = s.stopped := by
  induction h with
  | refl => rfl
  | trans _ _ ih₁ ih₂ => exact ih₂.trans ih₁
  | write _ _ _ => rfl
  | declare _ => rfl
  | nest _ ih => exact ih
  | sweep =>
    unfold Heap.swept
    split <;> rfl
  | build _ => rfl
  | keep => rfl
  | busy _ ih => exact ih
  | aside hb => exact hb.stopped

/-- The steps ask the cache for patterns, and do nothing else to it. -/
theorem patterns (h : Trail L D s t) : s.patterns.Leads t.patterns := by
  induction h with
  | refl => exact .refl
  | trans _ _ ih₁ ih₂ => exact ih₁.trans ih₂
  | write _ _ _ => exact .refl
  | declare _ => exact .refl
  | nest _ ih => exact ih
  | sweep =>
    unfold Heap.swept
    split <;> exact .refl
  | build _ => exact .refl
  | keep => exact .refl
  | busy _ ih => exact ih
  | aside hb => exact hb.patterns

end Trail

namespace Run

variable {α β : Type} {L : Licence} {D : String → Prop} {P : α → Prop} {Q : β → Prop}

/-- A computation that touches neither variables nor native types nor objects. -/
def Quiet (x : Run α) : Prop := ∀ s : State, s.Beside (x.after s)

/-- A computation that goes along a trail, and whose result a predicate describes. -/
def Traces (L : Licence) (D : String → Prop) (x : Run α) (P : α → Prop) : Prop :=
  ∀ s : State, s.AllNative L.Admits → Ends x s (fun a t => Trail L D s t ∧ P a) fun _ t => Trail L D s t

/-! ## Quiet computations -/

theorem quiet_iff {x : Run α} :
    Quiet x ↔ ∀ s : State, Ends x s (fun _ t => s.Beside t) (fun _ t => s.Beside t) := by
  simp only [Quiet, ends_after]

theorem quiet_pure {a : α} : Quiet (pure a) := fun s => .refl s

theorem quiet_fail {line : Nat} {c : Fault.Cause} : Quiet (fail line c : Run α) := fun s => .refl s

theorem quiet_get : Quiet (get : Run State) := fun s => .refl s

theorem quiet_modify {f : State → State} (h : ∀ s : State, s.Beside (f s)) : Quiet (modify f) := h

theorem quiet_lift {line : Nat} {r : Except Fault.Cause α} : Quiet (lift line r) := by
  cases r with
  | ok a => exact quiet_pure
  | error c => exact quiet_fail

theorem quiet_lookup {line : Nat} {name : String} : Quiet (lookup line name) := by
  rw [quiet_iff]
  intro s
  rw [ends_lookup]
  exact ⟨fun _ _ => .refl s, fun _ => .refl s⟩

theorem quiet_bind {x : Run α} {f : α → Run β} (hx : Quiet x) (hf : ∀ a, Quiet (f a)) : Quiet (x >>= f) := by
  rw [quiet_iff] at hx ⊢
  intro s
  rw [ends_bind]
  refine (hx s).mono (fun a t ht => ?_) fun _ _ ht => ht
  exact (quiet_iff.mp (hf a) t).mono (fun _ _ hu => ht.trans hu) fun _ _ hu => ht.trans hu

theorem quiet_checkStop {line : Nat} : Quiet (checkStop line) := by
  rw [quiet_iff]
  intro s
  rw [ends_checkStop]
  exact ⟨fun _ => .refl s, fun _ => .refl s⟩

theorem quiet_print {text : String} : Quiet (print text) := quiet_modify fun _ => ⟨rfl, rfl, rfl, rfl, rfl, rfl, .refl⟩

theorem quiet_allocate : Quiet allocate := quiet_modify fun _ => ⟨rfl, rfl, rfl, rfl, rfl, rfl, .refl⟩

theorem quiet_readLine {line : Nat} : Quiet (readLine line) := by
  refine quiet_bind quiet_checkStop fun _ => ?_
  rw [quiet_iff]
  intro s
  simp only [ends_bind, ends_get]
  split
  · exact .refl s
  · simp only [ends_bind, ends_set]
    split <;> exact ⟨rfl, rfl, rfl, rfl, rfl, rfl, .refl⟩

theorem quiet_importType {line : Nat} {name : String} : Quiet (importType line name) := by
  refine quiet_bind quiet_get fun s => ?_
  split
  · exact quiet_fail
  · exact quiet_modify fun _ => ⟨rfl, rfl, rfl, rfl, rfl, rfl, .refl⟩

theorem quiet_binary {line : Nat} {op : BinaryOp} {l r : Value} : Quiet (binary line op l r) := by
  rw [quiet_iff]
  intro s
  simp only [binary, ends_bind, ends_get, ends_set, ends_lift]
  have hst : s.Beside { s with patterns := (op.apply l r s.patterns).2 } :=
    ⟨rfl, rfl, rfl, rfl, rfl, rfl, BinaryOp.leads_apply⟩
  exact ⟨fun _ _ => hst, fun _ _ => hst⟩

theorem quiet_counted {operands : List Operand} {v : Value} : Quiet (counted operands v) := by
  unfold counted
  split
  · exact quiet_bind quiet_allocate fun _ => quiet_pure
  · exact quiet_bind quiet_pure fun _ => quiet_pure

theorem quiet_read {line : Nat} {o : Operand} : Quiet (o.read line) := by
  cases o with
  | named name => exact quiet_lookup
  | temporary v => exact quiet_pure

theorem quiet_combine {line : Nat} {op : BinaryOp} {l r : Operand} : Quiet (combine line op l r) := by
  unfold combine
  split
  · exact quiet_bind quiet_read fun _ => quiet_lift
  · exact quiet_bind quiet_read fun _ => quiet_lift
  · refine quiet_bind quiet_read fun a => quiet_bind quiet_read fun b => ?_
    exact quiet_bind quiet_binary fun _ => quiet_counted

theorem quiet_drawRandom {line : Nat} {args : List Value} : Quiet (Builtin.drawRandom line args) := by
  cases args with
  | nil => exact fun s => ⟨rfl, rfl, rfl, rfl, rfl, rfl, .refl⟩
  | cons bound rest =>
    refine quiet_bind quiet_lift fun n => ?_
    split
    · exact quiet_fail
    · exact fun s => ⟨rfl, rfl, rfl, rfl, rfl, rfl, .refl⟩

/-! ## One rule for each construct -/

theorem Quiet.traces {x : Run α} (h : Quiet x) : Traces L D x fun _ => True := by
  rw [quiet_iff] at h
  intro s _
  exact (h s).mono (fun _ _ ht => ⟨.aside ht, trivial⟩) fun _ _ ht => .aside ht

theorem Traces.weaken {P' : α → Prop} {D' : String → Prop} {x : Run α} (hD : ∀ n, D n → D' n)
    (hx : Traces L D x P) (hP : ∀ a, P a → P' a) : Traces L D' x P' := by
  intro s hs
  exact (hx s hs).mono (fun a _ h => ⟨h.1.mono hD, hP a h.2⟩) fun _ _ h => h.mono hD

theorem traces_pure {a : α} (h : P a) : Traces L D (pure a) P := fun _ _ => ⟨.refl, h⟩

theorem traces_done {a : α} : Traces L D (pure a) fun _ => True := traces_pure trivial

theorem traces_fail {line : Nat} {c : Fault.Cause} : Traces L D (fail line c : Run α) P := fun _ _ => .refl

theorem traces_throw {h : Halt Fault} : Traces L D (throw h : Run α) P := fun _ _ => .refl

theorem Traces.bind {x : Run α} {f : α → Run β} (hx : Traces L D x P) (hf : ∀ a, P a → Traces L D (f a) Q) :
    Traces L D (x >>= f) Q := by
  intro s hs
  rw [ends_bind]
  refine (hx s hs).mono (fun a t h => ?_) fun _ _ h => h
  obtain ⟨hst, ha⟩ := h
  have hfa := hf a ha t (hst.allNative hs)
  exact hfa.mono (fun _ _ h => ⟨hst.trans h.1, h.2⟩) fun _ _ h => hst.trans h

/-- Many computations start with one that is quiet. -/
theorem Quiet.andThen {x : Run α} {f : α → Run β} (hx : Quiet x) (hf : ∀ a, Traces L D (f a) Q) :
    Traces L D (x >>= f) Q := hx.traces.bind fun a _ => hf a

theorem traces_get {f : State → Run α} (hf : ∀ s, s.AllNative L.Admits → Traces L D (f s) P) :
    Traces L D (get >>= f) P := fun s hs => hf s hs s hs

theorem Traces.map {x : Run α} {f : α → β} (hx : Traces L D x P) : Traces L D (f <$> x) fun _ => True := by
  intro s hs
  rw [ends_map]
  exact (hx s hs).mono (fun _ _ h => ⟨h.1, trivial⟩) fun _ _ h => h

theorem Traces.nested {B : String → Prop} {x : Run α} (hx : Traces L B x P) : Traces L D (Run.nested x) P := by
  intro s hs
  rw [ends_nested]
  refine (hx s.enter (hs.same rfl rfl)).mono (fun _ _ h => ⟨?_, h.2⟩) fun _ _ h => ?_
  · exact .nest h.1
  · exact .nest h

theorem traces_define {name : String} {v : Value} (h : D name) : Traces L D (define name v) fun _ => True := by
  intro s _
  rw [ends_define]
  exact ⟨.declare h, trivial⟩

theorem traces_store {line : Nat} {name : String} {v : Value} (h : L.names name) :
    Traces L D (store line name v) fun _ => True := by
  intro s _
  rw [ends_store]
  refine ⟨fun slot hf => ⟨fun slot' hs => ⟨?_, trivial⟩, fun c _ => .refl⟩, fun _ => .refl⟩
  exact .write h hf (.store hs)

theorem traces_mutate {line : Nat} {name : String} {m : Member} {args : List Value} (h : L.names name) :
    Traces L D (mutate line name m args) fun _ => True := by
  intro s _
  rw [ends_mutate]
  refine ⟨fun slot hf => ⟨fun w hm => ⟨?_, trivial⟩, fun w c hm => ?_⟩, fun _ => .refl⟩
  · exact .write h hf (.mutate hm)
  · exact .write h hf (.spoil hm)

theorem Traces.outcome {x : Run α} (hx : Traces L D x P) : Traces L D (Heap.outcome x) fun _ => True := by
  intro s hs
  rw [Heap.ends_outcome]
  refine (hx s hs).mono (fun _ _ h => ⟨h.1, trivial⟩) fun e _ h => ?_
  cases e with
  | error f => exact ⟨h, trivial⟩
  | outOfFuel => exact h

theorem Traces.failure? {x : Run Unit} {P : Unit → Prop} (hx : Traces L D x P) :
    Traces L D (Run.failure? x) fun _ => True := by
  intro s hs
  rw [ends_failure?]
  refine (hx s hs).mono (fun _ _ h => ⟨h.1, trivial⟩) fun e _ h => ?_
  cases e with
  | error f =>
    simp only
    split
    · exact ⟨h, trivial⟩
    · exact h
  | outOfFuel => exact h

theorem Traces.whileBusy {id : Nat} {x : Run Value} {P : Value → Prop} (hx : Traces L D x P) :
    Traces L D (Heap.whileBusy id x) P := by
  intro s hs
  rw [Heap.ends_whileBusy]
  have hs' : (Heap.marked id true s).AllNative L.Admits := hs.mapped fun o => by split <;> rfl
  exact (hx _ hs').mono (fun _ _ h => ⟨.busy h.1, h.2⟩) fun _ _ h => .busy h

/-! ## Objects -/

theorem traces_sweep {held : List Value} : Traces L D (Heap.sweep held) fun _ => True :=
  fun _ _ => ⟨.sweep, trivial⟩

/-- A method, when the calls that it makes go along trails. -/
theorem traces_perform {line id : Nat} {callee : Heap.Call}
    (hc : ∀ object method args, (∀ a ∈ args, a.Within L.names) →
      Traces L D (callee object method args) fun _ => True)
    {a : Action} (ha : a.StaysIn L.names) : Traces L D (Heap.perform line callee id a) fun _ => True := by
  induction a with
  | done v => exact traces_done
  | fail c => exact traces_fail
  | keep i next ih =>
    have hkeep : Traces L D (Heap.update id fun o => { o with contents := i }) fun _ => True :=
      fun s _ => ⟨.keep, trivial⟩
    exact hkeep.bind fun _ _ => ih ha
  | store into v next ih =>
    obtain ⟨hinto, hnext⟩ := ha
    simp only [Heap.perform]
    cases hname : into.origin with
    | none => exact quiet_pure.andThen fun r => ih r (hnext r)
    | some name =>
      refine (traces_store (hinto name hname)).outcome.bind fun r _ => ?_
      exact quiet_pure.andThen fun r => ih r (hnext r)
  | call object method args next ih =>
    obtain ⟨hargs, hnext⟩ := ha
    exact (hc object method args hargs).outcome.bind fun r _ => ih _ (hnext _)
  | look next ih => exact quiet_get.andThen fun s => ih s.disk (ha s.disk)
  | write d next ih =>
    have hdisk : Quiet (modify fun s : State => { s with disk := d }) :=
      quiet_modify fun _ => ⟨rfl, rfl, rfl, rfl, rfl, rfl, .refl⟩
    exact hdisk.andThen fun _ => ih ha

theorem traces_invokeTo {line depth id method : Nat} {args : List Argument}
    (hargs : ∀ a ∈ args, a.Within L.names) : Traces L D (Heap.invokeTo line depth id method args) fun _ => True := by
  induction depth generalizing id method args with
  | zero => exact traces_throw
  | succ depth ih =>
    refine traces_get fun s hs => ?_
    cases ho : Heap.find? s id with
    | none => exact traces_fail
    | some o =>
      simp only
      split
      · exact traces_fail
      · have hstays := (hs.find? ho).stays o.contents method hargs
        exact (traces_perform (fun _ _ _ h => ih h) hstays).whileBusy

/-- Arguments matter only if an object has a method for them. -/
theorem traces_callObject {line : Nat} {held : List Value} {native : String} {id : Nat} {name : String}
    {args : List Argument} (hargs : L.methods name args.length = true → ∀ a ∈ args, a.Within L.names) :
    Traces L D (callObject line held native id name args) fun _ => True := by
  refine traces_get fun s hs => ?_
  cases ho : Heap.find? s id with
  | none => exact traces_fail
  | some o =>
    simp only
    cases hm : o.native.interface.findMethod? name args.length with
    | none => exact traces_fail
    | some m =>
      have hwithin := hargs ((hs.find? ho).declares hm)
      exact traces_sweep.bind fun _ _ => quiet_get.andThen fun t => traces_invokeTo hwithin

theorem traces_build {line : Nat} {t : NativeType} {number : Nat} {args : List Value} (ht : L.Admits t) :
    Traces L D (Heap.construct line t number args) fun _ => True := by
  intro s _
  simp only [Heap.construct, ends_bind, ends_get, ends_lift]
  exact ⟨fun built _ => ⟨.build ht, trivial⟩, fun _ _ => .refl⟩

theorem traces_construct {line : Nat} {held : List Value} {t : NativeType} {name : String} {args : List Value}
    (ht : L.Admits t) : Traces L D (construct line held t name args) fun _ => True := by
  unfold construct
  cases t.interface.findConstructor? args.length with
  | none => exact traces_fail
  | some number => exact traces_sweep.bind fun _ _ => traces_build ht

/-! ## Calls -/

theorem traces_readInput {line : Nat} {args : List Argument} (hargs : ∀ a ∈ args, a.Within L.names) :
    Traces L D (Builtin.readInput line args) fun _ => True := by
  cases args with
  | nil => exact traces_fail
  | cons a rest =>
    refine quiet_readLine.andThen fun text => ?_
    cases text with
    | none => exact traces_done
    | some text =>
      simp only
      cases hname : a.origin with
      | none => exact traces_fail
      | some name =>
        have hlicence : L.names name := hargs a List.mem_cons_self name hname
        exact (traces_store hlicence).bind fun _ _ => traces_done

theorem traces_call {line : Nat} {b : Builtin} {args : List Argument}
    (hargs : b = .input → ∀ a ∈ args, a.Within L.names) : Traces L D (b.call line args) fun _ => True := by
  simp only [Builtin.call]
  split
  · exact traces_fail
  · split
    · exact traces_done
    · unfold Builtin.perform
      split
      · exact quiet_drawRandom.traces
      · exact traces_readInput (hargs rfl)
      · exact quiet_print.andThen fun _ => traces_done
      · exact quiet_lift.traces

theorem Traces.shortCircuit {line : Nat} {op : BinaryOp} {l : Operand} {right : Run Operand} {P : Operand → Prop}
    (hr : Traces L D right P) : Traces L D (Run.shortCircuit line op l right) fun _ => True := by
  refine quiet_read.andThen fun v => quiet_lift.andThen fun a => ?_
  split
  · exact traces_done
  · refine hr.bind fun r _ => ?_
    refine quiet_read.andThen fun _ => quiet_read.andThen fun w => ?_
    exact quiet_lift.andThen fun b => quiet_counted.traces

/-- The result of a method is its receiver only if the method changes it. -/
theorem traces_callMember {line : Nat} {o : Operand} {m : Member} {args : List Value}
    (h : m.isMutator = true → ∀ name, o = .named name → L.names name) :
    Traces L D (callMember line o m args) fun r => ∀ name, r = .named name → m.isMutator = true ∧ o = .named name := by
  unfold callMember
  split
  · rename_i hm
    cases o with
    | named name =>
      refine (traces_mutate (h hm name rfl)).bind fun _ _ => traces_pure ?_
      intro other he
      exact ⟨hm, he⟩
    | temporary v => exact quiet_lift.andThen fun _ => traces_pure nofun
  · exact quiet_read.andThen fun v => quiet_lift.andThen fun _ => traces_pure nofun

end Run

/-! ## Expressions -/

open Run

namespace Expr

variable {L : Licence} {D : String → Prop}

/-- The variable that an operand stands for is the root of its expression. -/
def Roots (e : Expr) (o : Operand) : Prop := ∀ name, o = .named name → e.root? = some name

theorem mem_variableNames {args : List Argument} {es : List Expr}
    (h : args.map (·.origin) = es.map Expr.variable?) {a : Argument} (ha : a ∈ args) {n : String}
    (hn : a.origin = some n) : n ∈ variableNames es := by
  have hmem : some n ∈ es.map Expr.variable? := by
    rw [← h, ← hn]
    exact List.mem_map.mpr ⟨a, ha, rfl⟩
  obtain ⟨e, he, hv⟩ := List.mem_map.mp hmem
  exact List.mem_filterMap.mpr ⟨e, he, hv⟩

mutual

theorem traces_operand (held : List Value) (e : Expr) (h : ∀ n ∈ e.writes L.methods, L.names n) :
    Traces L D (e.operand held) e.Roots := by
  cases e with
  | constant line c =>
    rw [Expr.operand]
    exact traces_pure nofun
  | var line name =>
    rw [Expr.operand]
    refine quiet_lookup.andThen fun _ => traces_pure ?_
    intro other he
    cases he
    rfl
  | unary line op e =>
    rw [Expr.operand]
    refine (traces_operand held e h).bind fun o _ => quiet_read.andThen fun v => quiet_lift.andThen fun w => ?_
    exact quiet_counted.andThen fun _ => traces_pure nofun
  | binary line op left right =>
    rw [Expr.operand]
    have hl := traces_operand held left fun n hn => h n (List.mem_append.mpr (.inl hn))
    have hr : ∀ held, Traces L D (right.operand held) right.Roots := fun held =>
      traces_operand held right fun n hn => h n (List.mem_append.mpr (.inr hn))
    refine hl.bind fun l _ => ?_
    split
    · exact (hr held).shortCircuit.bind fun _ _ => traces_pure nofun
    · exact (hr _).bind fun r _ => quiet_combine.andThen fun _ => traces_pure nofun
  | call line name es =>
    rw [Expr.operand]
    have hes := traces_arguments held es fun n hn => h n (List.mem_append.mpr (.inr hn))
    refine traces_get fun s hs => ?_
    split
    · rename_i t ht
      refine hes.bind fun args _ => ?_
      exact (traces_construct (hs.imported? ht)).bind fun _ _ => traces_pure nofun
    · split
      · exact traces_fail
      · rename_i b hb
        split
        · refine hes.bind fun args hargs => ?_
          refine (traces_call fun hinput a ha n hn => ?_).bind fun _ _ => traces_pure nofun
          -- Of all builtin functions, only `input` writes.
          refine h n (List.mem_append.mpr (.inl ?_))
          rw [if_pos (hinput ▸ hb)]
          exact mem_variableNames hargs ha hn
        · exact traces_fail
  | member line receiver m es =>
    rw [Expr.operand]
    simp only [Expr.writes, List.mem_append] at h
    have hreceiver := traces_operand held receiver fun n hn => h n (.inr (.inr (.inl hn)))
    have hes : ∀ held, Traces L D (Expr.arguments held es) _ := fun held =>
      traces_arguments held es fun n hn => h n (.inr (.inr (.inr hn)))
    refine hreceiver.bind fun o ho => quiet_read.andThen fun v => ?_
    -- Objects may write their arguments, other receivers themselves.
    split
    · refine (hes _).bind fun args hargs => ?_
      refine (traces_callObject fun hm a ha n hn => ?_).bind fun _ _ => traces_pure nofun
      refine h n (.inr (.inl ?_))
      have hlength : args.length = es.length := by simpa using congrArg List.length hargs
      rw [if_pos (hlength ▸ hm)]
      exact mem_variableNames hargs ha hn
    · refine (hes _).bind fun args _ => (traces_callMember fun hm name hname => ?_).weaken (fun _ hn => hn) ?_
      · refine h name (.inl ?_)
        rw [if_pos hm, ho name hname]
        exact List.mem_singleton.mpr rfl
      · intro r hr name hname
        obtain ⟨hm, hroot⟩ := hr name hname
        rw [root?, if_pos hm]
        exact ho name hroot
  | index line target position =>
    rw [Expr.operand]
    have htarget := traces_operand held target fun n hn => h n (List.mem_append.mpr (.inl hn))
    refine htarget.bind fun o _ => ?_
    refine (traces_operand _ position fun n hn => h n (List.mem_append.mpr (.inr hn))).bind fun p _ => ?_
    refine quiet_read.andThen fun i => quiet_lift.andThen fun i => quiet_read.andThen fun v => ?_
    exact quiet_lift.andThen fun c => quiet_lift.andThen fun _ => traces_pure nofun
  | field line target position =>
    rw [Expr.operand]
    refine (traces_operand held target h).bind fun o _ => quiet_read.andThen fun v => ?_
    exact quiet_lift.andThen fun r => quiet_lift.andThen fun _ => traces_pure nofun
  | collection line elements =>
    rw [Expr.operand]
    refine (traces_arguments held elements h).bind fun args _ => ?_
    exact quiet_lift.andThen fun c => traces_pure nofun

theorem traces_arguments (held : List Value) (es : List Expr) (h : ∀ n ∈ Expr.writesAll L.methods es, L.names n) :
    Traces L D (Expr.arguments held es) fun args => args.map (·.origin) = es.map Expr.variable? := by
  cases es with
  | nil =>
    rw [Expr.arguments]
    exact traces_pure rfl
  | cons e es =>
    rw [Expr.arguments]
    refine (traces_operand held e fun n hn => h n (List.mem_append.mpr (.inl hn))).bind fun o _ => ?_
    refine quiet_read.andThen fun v => ?_
    refine (traces_arguments (v :: held) es fun n hn => h n (List.mem_append.mpr (.inr hn))).bind fun args hargs => ?_
    refine traces_pure ?_
    rw [List.map_cons, List.map_cons, hargs]

end

theorem traces_eval (held : List Value) (e : Expr) (h : ∀ n ∈ e.writes L.methods, L.names n) :
    Traces L D (e.eval held) fun _ => True :=
  (traces_operand held e h).bind fun _ _ => quiet_read.traces

end Expr

/-! ## Statements -/

namespace Run

variable {L : Licence} {D : String → Prop} {P : Unit → Prop}

theorem traces_repeatWhile {line : Nat} {condition : Run Value} {body : Run Unit} {PC : Value → Prop}
    (hc : Traces L D condition PC) (hb : Traces L D body P) (passes : Nat) :
    Traces L D (repeatWhile line condition body passes) fun _ => True := by
  induction passes with
  | zero => exact traces_throw
  | succ passes ih =>
    refine quiet_checkStop.andThen fun _ => hc.bind fun v _ => quiet_lift.andThen fun b => ?_
    split
    · exact hb.bind fun _ _ => ih
    · exact traces_done

theorem Traces.pass {line : Nat} {name : String} {v : Value} {body : Run Unit} {B : String → Prop}
    (hb : Traces L B body P) : Traces L D (Run.pass line name v body) P := by
  refine quiet_checkStop.andThen fun _ => Traces.nested (B := (· = name)) ?_
  exact (traces_define (D := (· = name)) rfl).bind fun _ _ => hb.nested

theorem traces_eachValue {line : Nat} {name : String} {body : List Value → Run Unit} {B : String → Prop}
    (hb : ∀ rest, Traces L B (body rest) P) (vs : List Value) :
    Traces L D (eachValue line name body vs) fun _ => True := by
  induction vs with
  | nil => exact traces_done
  | cons v rest ih => exact (hb rest).pass.bind fun _ _ => ih

theorem traces_eachInteger {line : Nat} {name : String} {body : Run Unit} {B : String → Prop}
    (hb : Traces L B body P) (n : Nat) (i : Int64) :
    Traces L D (eachInteger line name body n i) fun _ => True := by
  rw [eachInteger_eq_eachValue]
  exact traces_eachValue (fun _ => hb) _

end Run

theorem mem_of_findHandler? {α : Type} {name : String} {handlers : List (String × α)} {x : α}
    (h : findHandler? name handlers = some x) : ∃ n, (n, x) ∈ handlers := by
  simp only [findHandler?, Option.or_eq_some_iff] at h
  rcases h with h | ⟨-, h⟩
  · exact ⟨name, Scope.mem_of_lookup h⟩
  · exact ⟨anyError, Scope.mem_of_lookup h⟩

namespace Statement

variable {L : Licence}

mutual

theorem traces_exec (held : List Value) (passes : Nat) (st : Statement)
    (h : ∀ n ∈ st.writes L.methods, L.names n) :
    Traces L (· ∈ st.declared) (st.exec held passes) fun _ => True := by
  cases st with
  | expression line e =>
    rw [Statement.exec]
    exact (Expr.traces_eval held e h).map
  | declare line name e =>
    rw [Statement.exec]
    refine (Expr.traces_eval held e h).bind fun v _ => ?_
    exact (traces_define (List.mem_singleton.mpr rfl)).bind fun _ _ => traces_done
  | assign line name e =>
    rw [Statement.exec]
    refine (Expr.traces_eval held e fun n hn => h n (List.mem_cons_of_mem _ hn)).bind fun v _ => ?_
    exact (traces_store (h name List.mem_cons_self)).bind fun _ _ => traces_done
  | compound line name op e =>
    rw [Statement.exec]
    refine (Expr.traces_operand held e fun n hn => h n (List.mem_cons_of_mem _ hn)).bind fun r _ => ?_
    refine quiet_combine.andThen fun v => ?_
    exact (traces_store (h name List.mem_cons_self)).bind fun _ _ => traces_done
  | choice line branches otherwise =>
    rw [Statement.exec]
    refine Traces.bind (P := fun _ => True) ?_ fun _ _ => traces_done
    refine traces_execBranches held passes ?_ branches fun n hn => h n (List.mem_append.mpr (.inl hn))
    exact traces_execOptional held passes otherwise fun n hn => h n (List.mem_append.mpr (.inr hn))
  | loop line condition body =>
    rw [Statement.exec]
    have hc : Traces L (· ∈ declared (.loop line condition body)) (condition.eval held) _ :=
      Expr.traces_eval held condition fun n hn => h n (List.mem_append.mpr (.inl hn))
    have hb := traces_execAll held passes body fun n hn => h n (List.mem_append.mpr (.inr hn))
    exact (traces_repeatWhile hc hb.nested passes).bind fun _ _ => traces_done
  | each line name source body =>
    simp only [writes, List.mem_append] at h
    have hb : ∀ held, Traces L _ (execAll held passes body) fun _ => True := fun held =>
      traces_execAll held passes body fun n hn => h n (.inr hn)
    cases source with
    | range start bound inclusive =>
      rw [Statement.exec]
      simp only [Source.writes, List.mem_append] at h
      refine (Expr.traces_eval held start fun n hn => h n (.inl (.inl hn))).bind fun a _ => ?_
      refine quiet_lift.andThen fun a => ?_
      refine (Expr.traces_eval held bound fun n hn => h n (.inl (.inr hn))).bind fun b _ => ?_
      refine quiet_lift.andThen fun b => ?_
      exact (traces_eachInteger (hb held) _ _).bind fun _ _ => traces_done
    | elements e =>
      rw [Statement.exec]
      refine (Expr.traces_eval held e fun n hn => h n (.inl hn)).bind fun v _ => quiet_lift.andThen fun c => ?_
      exact (traces_eachValue (fun rest => hb _) _).bind fun _ _ => traces_done
  | raise line name =>
    rw [Statement.exec]
    exact traces_fail
  | attempt line body handlers =>
    rw [Statement.exec]
    have hb := traces_execAll held passes body fun n hn => h n (List.mem_append.mpr (.inl hn))
    have hh := traces_execHandlers held passes handlers fun n hn => h n (List.mem_append.mpr (.inr hn))
    refine hb.nested.failure?.bind fun f _ => ?_
    cases f with
    | none => exact traces_done
    | some f =>
      simp only
      split
      · exact traces_throw
      · rename_i handler hf
        obtain ⟨n, hn⟩ := mem_of_findHandler? hf
        refine Traces.bind (P := fun _ => True) (.nested (B := fun _ => True) ?_) fun _ _ => traces_done
        exact (traces_define trivial).bind fun _ _ => hh _ hn
  | load line name =>
    rw [Statement.exec]
    exact quiet_importType.andThen fun _ => traces_done

theorem traces_execAll (held : List Value) (passes : Nat) (sts : List Statement)
    (h : ∀ n ∈ Statement.writesAll L.methods sts, L.names n) :
    Traces L (· ∈ Statement.declaredAll sts) (Statement.execAll held passes sts) fun _ => True := by
  cases sts with
  | nil =>
    rw [Statement.execAll]
    exact traces_done
  | cons st rest =>
    rw [Statement.execAll]
    have hst := traces_exec held passes st fun n hn => h n (List.mem_append.mpr (.inl hn))
    have hrest := traces_execAll held passes rest fun n hn => h n (List.mem_append.mpr (.inr hn))
    refine (hst.weaken (fun n hn => ?_) fun _ h => h).bind fun _ _ => hrest.weaken (fun n hn => ?_) fun _ h => h
    · exact List.mem_append.mpr (.inl hn)
    · exact List.mem_append.mpr (.inr hn)

theorem traces_execBranches {D : String → Prop} {line : Nat} (held : List Value) (passes : Nat)
    {otherwise : Run Unit} (ho : Traces L D otherwise fun _ => True) (branches : List (Expr × List Statement))
    (h : ∀ n ∈ Statement.writesBranches L.methods branches, L.names n) :
    Traces L D (Statement.execBranches held passes line otherwise branches) fun _ => True := by
  cases branches with
  | nil =>
    rw [Statement.execBranches]
    exact ho
  | cons branch rest =>
    obtain ⟨condition, body⟩ := branch
    rw [Statement.execBranches]
    simp only [writesBranches, List.mem_append] at h
    have hbody := traces_execAll held passes body fun n hn => h n (.inr (.inl hn))
    refine (Expr.traces_eval held condition fun n hn => h n (.inl hn)).bind fun v _ => ?_
    refine quiet_lift.andThen fun b => ?_
    split
    · exact hbody.nested
    · exact traces_execBranches held passes ho rest fun n hn => h n (.inr (.inr hn))

theorem traces_execOptional {D : String → Prop} (held : List Value) (passes : Nat)
    (body : Option (List Statement)) (h : ∀ n ∈ Statement.writesOptional L.methods body, L.names n) :
    Traces L D (Statement.execOptional held passes body) fun _ => True := by
  cases body with
  | none =>
    rw [Statement.execOptional]
    exact traces_done
  | some body =>
    rw [Statement.execOptional]
    exact (traces_execAll held passes body h).nested

theorem traces_execHandlers (held : List Value) (passes : Nat) (handlers : List (Handler Statement))
    (h : ∀ n ∈ Statement.writesHandlers L.methods handlers, L.names n) :
    ∀ p ∈ Statement.execHandlers held passes handlers, Traces L (fun _ => True) p.2 fun _ => True := by
  cases handlers with
  | nil =>
    rw [Statement.execHandlers]
    intro p hp
    cases hp
  | cons handler rest =>
    obtain ⟨name, line, body⟩ := handler
    rw [Statement.execHandlers]
    intro p hp
    rcases List.mem_cons.mp hp with rfl | hp
    · have hbody := traces_execAll held passes body fun n hn => h n (List.mem_append.mpr (.inl hn))
      exact hbody.weaken (fun _ _ => trivial) fun _ h => h
    · exact traces_execHandlers held passes rest (fun n hn => h n (List.mem_append.mpr (.inr hn))) p hp

end

/-- A statement that fails declares nothing. -/
theorem trail_of_error {held : List Value} {passes : Nat} {st : Statement} {s t : State} {e : Halt Fault}
    (h : ∀ n ∈ st.writes L.methods, L.names n) (hs : s.AllNative L.Admits)
    (hx : st.exec held passes s = .error e t) : Trail L (fun _ => False) s t := by
  have key : Ends (st.exec held passes) s (fun _ _ => True) fun _ t => Trail L (fun _ => False) s t := by
    cases st with
    | declare line name e =>
      -- The only one that declares, after its expression, and by then nothing can fail.
      rw [Statement.exec]
      simp only [ends_bind, ends_define, ends_pure]
      exact (Expr.traces_eval held e h s hs).mono (fun _ _ _ => trivial) fun _ _ ht => ht
    | _ =>
      refine (traces_exec held passes _ h s hs).mono (fun _ _ _ => trivial) fun _ _ ht => ?_
      exact ht.mono fun n hn => absurd hn List.not_mem_nil
  exact (ends_of_error hx).mp key

end Statement

/-! ## Scripts -/

namespace Program

variable {L : Licence}

/-- A script that fails has been carried out up to some statement, and has declared no more. -/
theorem traces_from (held : List Value) (passes : Nat) (p : Program)
    (h : ∀ n ∈ Statement.writesAll L.methods p, L.names n) (last : Option Value) (s : State)
    (hs : s.AllNative L.Admits) : Ends (p.execFrom held passes last) s
      (fun _ t => Trail L (· ∈ Statement.declaredAll p) s t)
      fun _ t => ∃ k v u, Program.execFrom held passes last (p.take k) s = .ok v u ∧
        Trail L (· ∈ Statement.declaredAll (p.take k)) s t := by
  induction p generalizing last s with
  | nil => exact .refl
  | cons st rest ih =>
    have hwrites : ∀ n ∈ st.writes L.methods, L.names n := fun n hn => h n (List.mem_append.mpr (.inl hn))
    have hst := Statement.traces_exec (last.toList ++ held) passes st hwrites s hs
    rw [Program.execFrom, ends_bind]
    cases hx : st.exec (last.toList ++ held) passes s with
    | error e t =>
      rw [ends_of_error hx]
      refine ⟨0, last, s, rfl, ?_⟩
      exact (Statement.trail_of_error hwrites hs hx).mono fun _ => False.elim
    | ok v t =>
      rw [ends_of_ok hx] at hst ⊢
      have hhead : ∀ sts, Trail L (· ∈ Statement.declaredAll (st :: sts)) s t := fun sts =>
        hst.1.mono fun n hn => List.mem_append.mpr (.inl hn)
      have hrest := ih (fun n hn => h n (List.mem_append.mpr (.inr hn))) (v.or last) t (hst.1.allNative hs)
      refine hrest.mono (fun w u hu => ?_) fun e u hu => ?_
      · exact (hhead rest).trans (hu.mono fun n hn => List.mem_append.mpr (.inr hn))
      · obtain ⟨k, w, x, hk, hu⟩ := hu
        refine ⟨k + 1, w, x, ?_, ?_⟩
        · rw [List.take_succ_cons, Program.execFrom, bind_of_ok hx]
          exact hk
        · exact (hhead _).trans (hu.mono fun n hn => List.mem_append.mpr (.inr hn))

theorem traces (passes : Nat) (p : Program) (h : ∀ n ∈ Statement.writesAll L.methods p, L.names n) (s : State)
    (hs : s.AllNative L.Admits) : Ends (p.exec passes) s (fun _ t => Trail L (· ∈ Statement.declaredAll p) s t)
      fun _ t => ∃ k v u, Program.exec passes (p.take k) s = .ok v u ∧
        Trail L (· ∈ Statement.declaredAll (p.take k)) s t :=
  traces_from [] passes p h none s hs

/-- Whether a script fails or not, it goes along a trail. -/
theorem traces_exec (passes : Nat) (p : Program) : Traces .any (fun _ => True) (p.exec passes) fun _ => True := by
  intro s hs
  refine (traces passes p (fun _ _ => trivial) s hs).mono (fun _ _ ht => ?_) fun _ _ ht => ?_
  · exact ⟨ht.mono fun _ _ => trivial, trivial⟩
  · obtain ⟨k, v, u, -, ht⟩ := ht
    exact ht.mono fun _ _ => trivial

end Program
end Crunch
