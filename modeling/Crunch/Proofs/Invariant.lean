import Crunch.Proofs.Outline
import Crunch.Proofs.Soundness
import Crunch.Proofs.Tame

/-!
# Crunch.Proofs.Invariant

What expressions that the check lets through keep.

* `Invariant`: a relation between what the check knows and a state, kept by every step of a run, under
  which no step fails for a bad cause.
* `Upholds`: a computation keeps such a relation and does not fail for a bad cause.
* `Invariant.operand`, `Invariant.eval`: so do expressions that the check lets through.
-/

namespace Crunch

open Run

/-- A variable is known to the check, where it is bad that one is unknown. -/
def Env.Knows (bad : Fault.Cause → Prop) (env : Env) (name : String) : Prop :=
  bad (.unknownVariable name) → ∃ t, env.scopes.find? name = some t

/-- What the steps of a run keep. Imports of the check count in `Fit` only if `I` holds. -/
structure Invariant (I : Prop) (bad : Fault.Cause → Prop) (Fit : Env → State → Prop) : Prop where
  unknown {c : Fault.Cause} : bad c → c.isUnknown = true
  tame {env : Env} {s : State} : Fit env s → s.Tame bad
  congr {env : Env} {s t : State} : Fit env s → t.scopes = s.scopes → t.types = s.types → t.imports = s.imports →
    t.Tame bad → Fit env t
  like {env env' : Env} {s : State} : Env.Like I env env' → Fit env s → Fit env' s
  known {env : Env} {s : State} {name : String} {t : Ty} : Fit env s → bad (.unknownVariable name) →
    env.scopes.find? name = some t → ∃ slot, s.scopes.find? name = some slot
  callee {env : Env} {s : State} {line : Nat} {name : String} {types : List Ty} {assignable : List Bool} {t : Ty} :
    Fit env s → Check.call env line name types assignable = .ok t → s.imported? name = none →
    Builtin.ofName? name = none → ¬bad (.unknownFunction name)
  write {env : Env} {s : State} {name : String} {slot slot' : Slot} : Fit env s → s.scopes.find? name = some slot →
    Fit env { s with scopes := s.scopes.update name slot' }
  declare {env : Env} {s : State} {name : String} {t : Ty} {v : Value} : Fit env s →
    Fit (env.define name t) (s.declare name v)
  enter {env : Env} {s : State} : Fit env s → Fit env.enter s.enter
  leave {env : Env} {s : State} : Fit env s → Fit env.leave s.leave
  load {env env' : Env} {s : State} {line : Nat} {name : String} : Fit env s → env.importType line name = .ok env' →
    Ends (importType line name) s (fun _ t => Fit env' t) fun h t => Fit env t ∧ h.Avoids bad

/-- A computation that keeps a relation, whose result a predicate describes, and that does not fail for
a bad cause. -/
def Upholds {α : Type} (Fit : Env → State → Prop) (bad : Fault.Cause → Prop) (env : Env) (x : Run α) (P : α → Prop) : Prop :=
  ∀ s, Fit env s → Ends x s (fun a t => Fit env t ∧ P a) fun h t => Fit env t ∧ h.Avoids bad

/-- The variables that an operand stands for are known. -/
def Operand.Knows (bad : Fault.Cause → Prop) (env : Env) : Operand → Prop
  | .named name => env.Knows bad name
  | .temporary _ => True

/-- The variables that arguments are read from are known. -/
def Argument.AllKnown (bad : Fault.Cause → Prop) (env : Env) (args : List Argument) : Prop :=
  ∀ a ∈ args, ∀ n, a.origin = some n → env.Knows bad n

namespace Invariant

variable {I : Prop} {bad : Fault.Cause → Prop} {Fit : Env → State → Prop} {env env' env'' : Env} {line : Nat}
  {α β : Type} {P : α → Prop} {Q : β → Prop}

/-! ## One rule for each construct -/

theorem avoids (hI : Invariant I bad Fit) {c : Fault.Cause} (h : c.isUnknown = false) : ¬bad c :=
  Fault.Cause.not_bad (fun _ => hI.unknown) h

theorem pure (_ : Invariant I bad Fit) {a : α} (h : P a) : Upholds Fit bad env (pure a) P := fun _ hs => ⟨hs, h⟩

theorem done (hI : Invariant I bad Fit) {a : α} : Upholds Fit bad env (Pure.pure a) fun _ => True := hI.pure trivial

theorem throw (_ : Invariant I bad Fit) {h : Halt Fault} (hh : h.Avoids bad) : Upholds Fit bad env (throw h) P :=
  fun _ hs => ⟨hs, hh⟩

theorem fail (hI : Invariant I bad Fit) {c : Fault.Cause} (h : c.isUnknown = false) :
    Upholds Fit bad env (Run.fail line c) P := fun _ hs => ⟨hs, hI.avoids h⟩

theorem bind (_ : Invariant I bad Fit) {x : Run α} {f : α → Run β} (hx : Upholds Fit bad env x P)
    (hf : ∀ a, P a → Upholds Fit bad env (f a) Q) : Upholds Fit bad env (x >>= f) Q := by
  intro s hs
  refine ends_bind.mpr ((hx s hs).mono (fun a t ha => ?_) fun _ _ he => he)
  exact hf a ha.2 t ha.1

theorem map (_ : Invariant I bad Fit) {x : Run α} {f : α → β} (hx : Upholds Fit bad env x P) (hf : ∀ a, P a → Q (f a)) :
    Upholds Fit bad env (f <$> x) Q := by
  intro s hs
  exact ends_map.mpr ((hx s hs).mono (fun a _ ha => ⟨ha.1, hf a ha.2⟩) fun _ _ he => he)

theorem lift_avoids (hI : Invariant I bad Fit) {r : Except Fault.Cause α} (h : Avoids bad r) :
    Upholds Fit bad env (Run.lift line r) fun _ => True := by
  cases r with
  | ok a => exact hI.done
  | error c => exact fun s hs => ⟨hs, h c rfl⟩

theorem lift (hI : Invariant I bad Fit) {r : Except Fault.Cause α} (h : Plain r) :
    Upholds Fit bad env (Run.lift line r) fun _ => True := hI.lift_avoids (h.avoids fun _ => hI.unknown)

theorem get (_ : Invariant I bad Fit) {f : State → Run α} (h : ∀ s, Fit env s → Upholds Fit bad env (f s) P) :
    Upholds Fit bad env (get >>= f) P := fun s hs => h s hs s hs

theorem set (_ : Invariant I bad Fit) {s : State} (h : Fit env s) : Upholds Fit bad env (set s) fun _ => True :=
  fun _ _ => ⟨h, trivial⟩

theorem modify (_ : Invariant I bad Fit) {f : State → State} (h : ∀ s, Fit env s → Fit env (f s)) :
    Upholds Fit bad env (modify f) fun _ => True := fun s hs => ⟨h s hs, trivial⟩

theorem natives (hI : Invariant I bad Fit) {s : State} (h : Fit env s) : s.AllNative (NativeType.Tame bad) :=
  State.tame_iff.mp (hI.tame h)

/-- Whatever is no variable, native type, import or object does not count. -/
theorem same (hI : Invariant I bad Fit) {s t : State} (h : Fit env s) (hs : t.scopes = s.scopes)
    (ht : t.types = s.types) (hi : t.imports = s.imports) (ho : t.objects = s.objects) : Fit env t :=
  hI.congr h hs ht hi (State.tame_iff.mpr ((hI.natives h).same ht ho))

theorem found (hI : Invariant I bad Fit) {s : State} {name : String} (hs : Fit env s) (h : env.Knows bad name)
    (hn : s.scopes.find? name = none) : ¬bad (.unknownVariable name) := by
  intro hb
  obtain ⟨t, ht⟩ := h hb
  obtain ⟨slot, hslot⟩ := hI.known hs hb ht
  rw [hn] at hslot
  cases hslot

theorem lookup (hI : Invariant I bad Fit) {name : String} (h : env.Knows bad name) :
    Upholds Fit bad env (Run.lookup line name) fun _ => True := fun _ hs =>
  ends_lookup.mpr ⟨fun _ _ => ⟨hs, trivial⟩, fun hn => ⟨hs, hI.found hs h hn⟩⟩

theorem store (hI : Invariant I bad Fit) {name : String} {v : Value} (h : env.Knows bad name) :
    Upholds Fit bad env (Run.store line name v) fun _ => True := by
  intro s hs
  refine ends_store.mpr ⟨fun slot hf => ⟨fun slot' _ => ⟨hI.write hs hf, trivial⟩, fun c hc => ⟨hs, ?_⟩⟩,
    fun hn => ⟨hs, hI.found hs h hn⟩⟩
  exact hI.avoids (Slot.plain_store c hc)

theorem mutate (hI : Invariant I bad Fit) {name : String} {m : Member} {args : List Value} (h : env.Knows bad name) :
    Upholds Fit bad env (Run.mutate line name m args) fun _ => True := by
  intro s hs
  refine ends_mutate.mpr ⟨fun slot hf => ⟨fun w _ => ⟨hI.write hs hf, trivial⟩, fun w c hm => ⟨hI.write hs hf, ?_⟩⟩,
    fun hn => ⟨hs, hI.found hs h hn⟩⟩
  exact hI.avoids (Value.plain_mutate c (by rw [hm]))

theorem read (hI : Invariant I bad Fit) {o : Operand} (h : o.Knows bad env) :
    Upholds Fit bad env (o.read line) fun _ => True := by
  cases o with
  | named name => exact hI.lookup h
  | temporary v => exact hI.done

theorem checkStop (hI : Invariant I bad Fit) : Upholds Fit bad env (Run.checkStop line) fun _ => True := fun _ hs =>
  ends_checkStop.mpr ⟨fun _ => ⟨hs, trivial⟩, fun _ => ⟨hs, hI.avoids rfl⟩⟩

theorem readLine (hI : Invariant I bad Fit) : Upholds Fit bad env (Run.readLine line) fun _ => True := by
  refine hI.bind hI.checkStop fun _ _ => hI.get fun s hs => ?_
  split
  · exact hI.done
  · refine hI.bind (hI.set (hI.same hs rfl rfl rfl rfl)) fun _ _ => ?_
    split
    · exact hI.done
    · exact hI.fail rfl

/-- Where names, native types and imports are the same, the same is kept. -/
theorem along (hI : Invariant I bad Fit) {x : Run α} (hl : Env.Like I env env') (hx : Upholds Fit bad env x P) :
    Upholds Fit bad env' x P := fun s hs =>
  (hx s (hI.like hl.symm hs)).mono (fun _ _ ha => ⟨hI.like hl ha.1, ha.2⟩) fun _ _ he => ⟨hI.like hl he.1, he.2⟩

/-! ## Operators -/

theorem binary (hI : Invariant I bad Fit) {op : BinaryOp} {l r : Value} :
    Upholds Fit bad env (Run.binary line op l r) fun _ => True := by
  refine hI.get fun s hs => hI.bind (hI.set ?_) fun _ _ => hI.lift BinaryOp.plain_apply
  exact hI.same hs rfl rfl rfl rfl

theorem counted (hI : Invariant I bad Fit) {operands : List Operand} {v : Value} :
    Upholds Fit bad env (Run.counted operands v) fun _ => True := by
  unfold Run.counted
  split
  · exact hI.bind (hI.modify fun _ hs => hI.same hs rfl rfl rfl rfl) fun _ _ => hI.done
  · exact hI.bind hI.done fun _ _ => hI.done

theorem combine (hI : Invariant I bad Fit) {op : BinaryOp} {l r : Operand} (hl : l.Knows bad env) (hr : r.Knows bad env) :
    Upholds Fit bad env (Run.combine line op l r) fun _ => True := by
  unfold Run.combine
  split
  · exact hI.bind (hI.read hr) fun _ _ => hI.lift Operation.plain_concat
  · exact hI.bind (hI.read hr) fun _ _ => hI.lift Operation.plain_concat
  · refine hI.bind (hI.read hl) fun a _ => hI.bind (hI.read hr) fun b _ => ?_
    exact hI.bind hI.binary fun _ _ => hI.counted

theorem shortCircuit (hI : Invariant I bad Fit) {op : BinaryOp} {l : Operand} {right : Run Operand}
    (hl : l.Knows bad env) (hr : Upholds Fit bad env right (Operand.Knows bad env)) :
    Upholds Fit bad env (Run.shortCircuit line op l right) fun _ => True := by
  refine hI.bind (hI.read hl) fun v _ => hI.bind (hI.lift Operation.plain_truth) fun a _ => ?_
  split
  · exact hI.done
  · refine hI.bind hr fun r hk => hI.bind (hI.read hl) fun _ _ => hI.bind (hI.read hk) fun w _ => ?_
    exact hI.bind (hI.lift Operation.plain_truth) fun b _ => hI.counted

theorem callMember (hI : Invariant I bad Fit) {o : Operand} {m : Member} {args : List Value} (ho : o.Knows bad env) :
    Upholds Fit bad env (Run.callMember line o m args) (Operand.Knows bad env) := by
  unfold Run.callMember
  split
  · split
    · exact hI.bind (hI.mutate ho) fun _ _ => hI.pure ho
    · exact hI.bind (hI.lift Value.plain_mutate) fun _ _ => hI.pure trivial
  · exact hI.bind (hI.read ho) fun v _ => hI.bind (hI.lift Value.plain_access) fun _ _ => hI.pure trivial

/-! ## Objects -/

theorem sweep (hI : Invariant I bad Fit) {held : List Value} :
    Upholds Fit bad env (Heap.sweep held) fun _ => True := by
  refine hI.modify fun s hs => ?_
  have ht := State.tame_iff.mpr ((hI.natives hs).swept held)
  unfold Heap.swept at ht ⊢
  split
  · exact hs
  · rename_i he
    rw [if_neg he] at ht
    exact hI.congr hs rfl rfl rfl ht

theorem update (hI : Invariant I bad Fit) {id : Nat} {f : Object → Object} (hf : ∀ o, (f o).native = o.native) :
    Upholds Fit bad env (Heap.update id f) fun _ => True := by
  refine hI.modify fun s hs => hI.congr hs rfl rfl rfl (State.tame_iff.mpr ((hI.natives hs).mapped fun o => ?_))
  split
  · exact hf o
  · rfl

theorem marked (hI : Invariant I bad Fit) {s : State} {id : Nat} {b : Bool} (hs : Fit env s) :
    Fit env (Heap.marked id b s) := by
  refine hI.congr hs rfl rfl rfl (State.tame_iff.mpr ((hI.natives hs).mapped fun o => ?_))
  split <;> rfl

theorem whileBusy (hI : Invariant I bad Fit) {id : Nat} {x : Run Value} (hx : Upholds Fit bad env x fun _ => True) :
    Upholds Fit bad env (Heap.whileBusy id x) fun _ => True := by
  intro s hs
  refine Heap.ends_whileBusy.mpr ((hx _ (hI.marked hs)).mono (fun _ t ht => ?_) fun _ t ht => ?_)
  · exact ⟨hI.marked ht.1, trivial⟩
  · exact ⟨hI.marked ht.1, ht.2⟩

/-- The failure of a call is looked at, and is not bad. -/
theorem outcome (_ : Invariant I bad Fit) {x : Run α} (hx : Upholds Fit bad env x fun _ => True) :
    Upholds Fit bad env (Heap.outcome x) fun r => Avoids bad (r.mapError (·.cause)) := by
  intro s hs
  refine Heap.ends_outcome.mpr ((hx s hs).mono (fun a t ht => ⟨ht.1, nofun⟩) fun h t ht => ?_)
  cases h with
  | outOfFuel => exact ht
  | error f => exact ⟨ht.1, fun c hc => Except.error.inj hc ▸ ht.2⟩

theorem perform (hI : Invariant I bad Fit) {id : Nat} {callee : Heap.Call} {args : List Argument}
    (hc : ∀ object method given, Argument.AllKnown bad env given →
      Upholds Fit bad env (callee object method given) fun _ => True)
    (hargs : Argument.AllKnown bad env args) {a : Action} (ha : a.Tame bad args) :
    Upholds Fit bad env (Heap.perform line callee id a) fun _ => True := by
  have hknown (g : Argument) (hg : g.From bad args) (n : String) (hn : g.origin = some n) : env.Knows bad n := by
    intro hb
    obtain ⟨b, hm, ho⟩ := hg n hn hb
    exact hargs b hm n ho hb
  -- The action goes on with what a store or a call gives, which avoids bad causes in turn.
  induction a with
  | done v => exact hI.done
  | fail c => exact fun s hs => ⟨hs, ha⟩
  | keep i next ih => exact hI.bind (hI.update fun _ => rfl) fun _ _ => ih ha
  | store into v next ih =>
    obtain ⟨hinto, hnext⟩ := ha
    simp only [Heap.perform]
    cases hn : into.origin with
    | none =>
      refine hI.bind (P := Avoids bad) (hI.pure fun c hc => ?_) fun r hr => ih r (hnext r hr)
      cases hc
      exact hI.avoids rfl
    | some name =>
      refine hI.bind (hI.outcome (hI.store (hknown into hinto name hn))) fun r hr => ?_
      exact hI.bind (hI.pure hr) fun r hr => ih r (hnext r hr)
  | call object method given next ih =>
    obtain ⟨hgiven, hnext⟩ := ha
    have hcall := hc object method given fun g hg => hknown g (hgiven g hg)
    exact hI.bind (hI.outcome hcall) fun r hr => ih _ (hnext _ hr)
  | look next ih => exact hI.get fun s _ => ih s.disk (ha s.disk)
  | write d next ih =>
    exact hI.bind (hI.modify fun s hs => hI.same hs rfl rfl rfl rfl) fun _ _ => ih ha

theorem invokeTo (hI : Invariant I bad Fit) : ∀ (depth id method : Nat) (args : List Argument),
    Argument.AllKnown bad env args → Upholds Fit bad env (Heap.invokeTo line depth id method args) fun _ => True := by
  intro depth
  induction depth with
  | zero => exact fun _ _ _ _ => hI.throw trivial
  | succ depth ih =>
    intro id method args hargs
    refine hI.get fun s hs => ?_
    cases hf : Heap.find? s id with
    | none => exact hI.fail rfl
    | some o =>
      simp only
      split
      · exact hI.fail rfl
      · exact hI.whileBusy (hI.perform ih hargs (((hI.natives hs).find? hf).invoke _ _ _))

theorem callObject (hI : Invariant I bad Fit) {held : List Value} {native : String} {id : Nat} {name : String}
    {args : List Argument} (hargs : Argument.AllKnown bad env args) :
    Upholds Fit bad env (Run.callObject line held native id name args) fun _ => True := by
  refine hI.get fun s hs => ?_
  cases Heap.find? s id with
  | none => exact hI.fail rfl
  | some o =>
    simp only
    split
    · exact hI.fail rfl
    · exact hI.bind hI.sweep fun _ _ => hI.get fun s _ => hI.invokeTo _ _ _ _ hargs

theorem construct (hI : Invariant I bad Fit) {held : List Value} {t : NativeType} {name : String} {args : List Value}
    (ht : t.Tame bad) : Upholds Fit bad env (Run.construct line held t name args) fun _ => True := by
  unfold Run.construct
  split
  · exact hI.fail rfl
  · refine hI.bind hI.sweep fun _ _ => hI.get fun s hs => ?_
    refine hI.bind (hI.lift_avoids (ht.construct _ _ _)) fun r _ => hI.bind (hI.set ?_) fun _ _ => hI.done
    refine hI.congr hs rfl rfl rfl ⟨(hI.tame hs).types, fun o ho => ?_⟩
    rcases List.mem_append.mp ho with ho | ho
    · exact (hI.tame hs).objects o ho
    · cases List.mem_singleton.mp ho
      exact ht

/-! ## Calls -/

theorem drawRandom (hI : Invariant I bad Fit) {args : List Value} :
    Upholds Fit bad env (Builtin.drawRandom line args) fun _ => True := by
  cases args with
  | nil =>
    refine hI.get fun s hs => ?_
    generalize s.random.unit = p
    exact hI.bind (hI.set (hI.same hs rfl rfl rfl rfl)) fun _ _ => hI.done
  | cons bound rest =>
    refine hI.bind (hI.lift Value.plain_integer?) fun n _ => ?_
    split
    · exact hI.fail rfl
    · refine hI.get fun s hs => ?_
      generalize s.random.below n.toInt.toNat = p
      exact hI.bind (hI.set (hI.same hs rfl rfl rfl rfl)) fun _ _ => hI.done

theorem readInput (hI : Invariant I bad Fit) {args : List Argument} (hargs : Argument.AllKnown bad env args) :
    Upholds Fit bad env (Builtin.readInput line args) fun _ => True := by
  cases args with
  | nil => exact hI.fail rfl
  | cons a rest =>
    refine hI.bind hI.readLine fun text _ => ?_
    cases text with
    | none => exact hI.done
    | some text =>
      cases hn : a.origin with
      | none => exact hI.fail rfl
      | some name => exact hI.bind (hI.store (hargs a List.mem_cons_self name hn)) fun _ _ => hI.done

theorem call (hI : Invariant I bad Fit) {b : Builtin} {args : List Argument} (hargs : Argument.AllKnown bad env args) :
    Upholds Fit bad env (b.call line args) fun _ => True := by
  simp only [Builtin.call]
  split
  · rename_i c hc
    exact hI.fail (Builtin.isUnknown_misfit? hc)
  · split
    · exact hI.done
    · unfold Builtin.perform
      split
      · exact hI.drawRandom
      · exact hI.readInput hargs
      · exact hI.bind (hI.modify fun _ hs => hI.same hs rfl rfl rfl rfl) fun _ _ => hI.done
      · exact hI.lift Builtin.plain_compute

/-! ## Expressions -/

/-- The variable that an expression is nothing but is known. -/
theorem knows_variable {e : Expr} {t : Ty} (h : e.typeIn env = .ok t) {name : String} (hn : e.variable? = some name) :
    env.Knows bad name := by
  cases e with
  | var line n =>
    cases hn
    rw [Expr.typeIn] at h
    exact fun _ => ⟨t, Env.find?_of_lookup h⟩
  | _ => cases hn

theorem knows_of_assign {name : String} {t : Ty} (h : env.assign line name t = .ok env') : env.Knows bad name := by
  obtain ⟨hk, -⟩ := Env.assign_ok h
  exact fun _ => hk

mutual

theorem operand (hI : Invariant I bad Fit) (held : List Value) (e : Expr) {t : Ty} (h : e.typeIn env = .ok t) :
    Upholds Fit bad env (e.operand held) (Operand.Knows bad env) := by
  cases e with
  | constant line c =>
    rw [Expr.operand]
    exact hI.pure trivial
  | var line name =>
    rw [Expr.operand]
    have hk : env.Knows bad name := knows_variable h rfl
    exact hI.bind (hI.lookup hk) fun _ _ => hI.pure hk
  | unary line op e =>
    rw [Expr.typeIn] at h
    rw [Expr.operand]
    obtain ⟨t, ht, -⟩ := Check.ok_of_bind h
    refine hI.bind (hI.operand held e ht) fun o ho => hI.bind (hI.read ho) fun v _ => ?_
    exact hI.bind (hI.lift UnaryOp.plain_apply) fun _ _ => hI.bind hI.counted fun _ _ => hI.pure trivial
  | binary line op left right =>
    rw [Expr.typeIn] at h
    rw [Expr.operand]
    obtain ⟨a, ha, h⟩ := Check.ok_of_bind h
    obtain ⟨b, hb, -⟩ := Check.ok_of_bind h
    refine hI.bind (hI.operand held left ha) fun l hl => ?_
    split
    · exact hI.bind (hI.shortCircuit hl (hI.operand held right hb)) fun _ _ => hI.pure trivial
    · refine hI.bind (hI.operand _ right hb) fun r hr => ?_
      exact hI.bind (hI.combine hl hr) fun _ _ => hI.pure trivial
  | call line name arguments =>
    rw [Expr.typeIn] at h
    rw [Expr.operand]
    obtain ⟨types, htypes, hcall⟩ := Check.ok_of_bind h
    refine hI.get fun s hs => ?_
    cases hs' : s.imported? name with
    | some t =>
      refine hI.bind (hI.arguments held arguments htypes) fun args _ => ?_
      exact hI.bind (hI.construct ((hI.natives hs).imported? hs')) fun _ _ => hI.pure trivial
    | none =>
      cases hb : Builtin.ofName? name with
      | none => exact fun s' hs'' => ⟨hs'', hI.callee hs hcall hs' hb⟩
      | some b =>
        simp only
        split
        · refine hI.bind (hI.arguments held arguments htypes) fun args hargs => ?_
          exact hI.bind (hI.call hargs) fun _ _ => hI.pure trivial
        · exact hI.fail rfl
  | member line receiver m arguments =>
    rw [Expr.typeIn] at h
    rw [Expr.operand]
    obtain ⟨r, hr, h⟩ := Check.ok_of_bind h
    obtain ⟨types, htypes, -⟩ := Check.ok_of_bind h
    refine hI.bind (hI.operand held receiver hr) fun o ho => hI.bind (hI.read ho) fun v _ => ?_
    split
    · refine hI.bind (hI.arguments _ arguments htypes) fun args hargs => ?_
      exact hI.bind (hI.callObject hargs) fun _ _ => hI.pure trivial
    · exact hI.bind (hI.arguments _ arguments htypes) fun args _ => hI.callMember ho
  | index line target position =>
    rw [Expr.typeIn] at h
    rw [Expr.operand]
    obtain ⟨a, ha, h⟩ := Check.ok_of_bind h
    obtain ⟨b, hb, -⟩ := Check.ok_of_bind h
    refine hI.bind (hI.operand held target ha) fun o ho => hI.bind (hI.operand _ position hb) fun p hp => ?_
    refine hI.bind (hI.read hp) fun i _ => hI.bind (hI.lift Value.plain_integer?) fun i _ => ?_
    refine hI.bind (hI.read ho) fun v _ => hI.bind (hI.lift Collection.plain_ofValue?) fun c _ => ?_
    exact hI.bind (hI.lift Collection.plain_get) fun _ _ => hI.pure trivial
  | field line target position =>
    rw [Expr.typeIn] at h
    rw [Expr.operand]
    obtain ⟨a, ha, -⟩ := Check.ok_of_bind h
    refine hI.bind (hI.operand held target ha) fun o ho => hI.bind (hI.read ho) fun v _ => ?_
    refine hI.bind (hI.lift Row.plain_ofValue?) fun r _ => ?_
    exact hI.bind (hI.lift Row.plain_field) fun _ _ => hI.pure trivial
  | collection line elements =>
    rw [Expr.typeIn] at h
    rw [Expr.operand]
    obtain ⟨u, hu, -⟩ := Check.ok_of_bind h
    obtain ⟨types, htypes, -⟩ := Expr.types_of_elements hu
    refine hI.bind (hI.arguments held elements htypes) fun args _ => ?_
    exact hI.bind (hI.lift Collection.plain_ofValues) fun c _ => hI.pure trivial

theorem arguments (hI : Invariant I bad Fit) (held : List Value) (es : List Expr) {types : List Ty}
    (h : Expr.typesIn env es = .ok types) :
    Upholds Fit bad env (Expr.arguments held es) (Argument.AllKnown bad env) := by
  cases es with
  | nil =>
    rw [Expr.arguments]
    exact hI.pure nofun
  | cons e es =>
    rw [Expr.arguments]
    obtain ⟨t, ts, ht, hts⟩ := Expr.cons_ok h
    refine hI.bind (hI.operand held e ht) fun o ho => hI.bind (hI.read ho) fun v _ => ?_
    refine hI.bind (hI.arguments (v :: held) es hts) fun args hargs => hI.pure fun a ha n hn => ?_
    rcases List.mem_cons.mp ha with rfl | ha
    · exact knows_variable ht hn
    · exact hargs a ha n hn

end

theorem eval (hI : Invariant I bad Fit) (held : List Value) (e : Expr) {t : Ty} (h : e.typeIn env = .ok t) :
    Upholds Fit bad env (e.eval held) fun _ => True :=
  hI.bind (hI.operand held e h) fun _ ho => hI.read ho

end Invariant

end Crunch
