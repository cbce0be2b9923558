import Crunch.Proofs.Core
import Crunch.Proofs.Members
import Crunch.Proofs.Operators
import Crunch.Proofs.Safe

/-!
# Crunch.Proofs.Evaluation

Expressions have the type that the check tells.

* `Operand.HasType`: an operand whose value, when it is read, is a solid one of a type.
* `Expr.safe_operand`: an expression without nulls that the check lets through, evaluated on a
  state that fits, has the type that the check tells, or fails for another reason than types.
-/

namespace Crunch

open Run

/-- An operand whose value is a solid one of a type. -/
def Operand.HasType (env : Env) : Operand → Ty → Prop
  | .named name, t => env.scopes.find? name = some t
  | .temporary v, t => v.HasType t

/-- An argument with a solid value of a type, read from a variable of this type if from any. -/
structure Argument.HasType (env : Env) (a : Argument) (t : Ty) : Prop where
  value : a.value.HasType t
  origin : ∀ name, a.origin = some name → env.scopes.find? name = some t

variable {env : Env} {line : Nat}

namespace Run

variable {l r o : Operand} {t u w : Ty}

theorem safe_read (h : o.HasType env t) : Safe env (o.read line) (·.HasType t) := by
  cases o with
  | named name => exact safe_lookup h
  | temporary v => exact safe_pure h

theorem safe_binary {op : BinaryOp} {v v' : Value} (hop : op ≠ .power) (hv : v.HasType t) (hv' : v'.HasType u)
    (h : op.result? t u = some w) : Safe env (binary line op v v') (·.HasType w) := by
  refine safe_get fun s hs => ?_
  refine safe_bind (safe_set (hs.congr rfl rfl)) fun _ _ => ?_
  exact safe_lift (BinaryOp.lands hop hv hv' h s.patterns)

/-- A text on the left is joined with the text on the right. -/
theorem safe_join {v : Value} {k : Kind} (hv : v.HasType t) (hr : r.HasType env u)
    (h : BinaryOp.add.result? t u = some w) (hk : t = Ty.scalar k) (htext : k = .literal ∨ k = .tabchar) :
    Safe env (r.read line >>= fun v' => lift line (Operation.concat v v')) (·.HasType w) := by
  refine safe_bind (safe_read hr) fun v' hv' => safe_lift (Operation.lands_concat hv hv' h ?_)
  subst hk
  simp only [BinaryOp.result?] at h
  split at h
  · cases h
    exact .inr rfl
  · split at h
    · cases h
      exact .inl rfl
    · have := (hv.tySolid.promote hv'.tySolid h).1
      rcases htext with rfl | rfl <;> rcases this with h | h | h <;> cases h

theorem safe_combine {op : BinaryOp} (hop : op ≠ .power) (hl : l.HasType env t) (hr : r.HasType env u)
    (h : op.result? t u = some w) : Safe env (combine line op l r) (·.HasType w) := by
  unfold combine
  split
  · have hv : (Value.literal _).HasType t := hl
    exact safe_join hv hr h hv.type.symm (.inl rfl)
  · have hv : (Value.tabchar _).HasType t := hl
    exact safe_join hv hr h hv.type.symm (.inr rfl)
  · refine safe_bind (safe_read hl) fun v hv => safe_bind (safe_read hr) fun v' hv' => ?_
    exact safe_bind (safe_binary hop hv hv' h) fun x hx => safe_counted hx

theorem safe_shortCircuit {op : BinaryOp} {right : Run Operand} (hop : op.isLogical = true)
    (hl : l.HasType env t) (hr : Safe env right (·.HasType env u)) (h : op.result? t u = some w) :
    Safe env (shortCircuit line op l right) (·.HasType w) := by
  obtain ⟨ht, hu, rfl⟩ := Operation.result?_logical hop h
  refine safe_bind (safe_read hl) fun v hv => ?_
  obtain ⟨a, ha⟩ := Operation.truth_of_boolean op hv ht
  rw [ha]
  refine safe_bind (P := (· = some a)) (safe_pure rfl) fun a' ha' => ?_
  subst ha'
  split
  · exact safe_pure ⟨.boolean _, rfl⟩
  · refine safe_bind hr fun r hr => safe_bind (safe_read hl) fun _ _ => safe_bind (safe_read hr) fun v' hv' => ?_
    obtain ⟨b, hb⟩ := Operation.truth_of_boolean op hv' hu
    rw [hb]
    refine safe_bind (P := (· = some b)) (safe_pure rfl) fun b' hb' => ?_
    subst hb'
    exact safe_counted (Operation.hasType_connective op a b)

end Run

/-! ## Calls of functions -/

namespace Argument

variable {args : List Argument} {types : List Ty}

theorem types_of_forall₂ (h : List.Forall₂ (HasType env) args types) :
    (args.map (·.value)).map Value.type = types := by
  induction h with
  | nil => rfl
  | cons ha _ ih => exact congrArg₂ List.cons ha.value.type ih

theorem values_of_forall₂ (h : List.Forall₂ (HasType env) args types) :
    List.Forall₂ Value.HasType (args.map (·.value)) types := by
  induction h with
  | nil => exact .nil
  | cons ha _ ih => exact .cons ha.value ih

theorem solid_of_forall₂ (h : List.Forall₂ (HasType env) args types) : ∀ v ∈ args.map (·.value), v.Solid := by
  induction h with
  | nil => simp
  | cons ha _ ih =>
    intro v hv
    rcases List.mem_cons.mp hv with rfl | hv
    · exact ha.value.solid
    · exact ih v hv

end Argument

namespace Builtin

variable {b : Builtin} {args : List Argument} {types : List Ty} {τ : Ty}

theorem safe_drawRandom {vs : List Value} (h : ∀ v ∈ vs, Domain.integer.Holds v) :
    Safe env (drawRandom line vs) (·.HasType (Builtin.random.result (vs.map Value.type))) := by
  cases vs with
  | nil =>
    refine safe_get fun s hs => ?_
    rcases s.random.unit with ⟨x, random⟩
    exact safe_bind (safe_set (hs.congr rfl rfl)) fun _ _ => safe_pure ⟨.numeric _, rfl⟩
  | cons bound rest =>
    obtain ⟨n, rfl⟩ := h bound List.mem_cons_self
    refine safe_bind (P := fun _ => True) (safe_pure trivial) fun n _ => ?_
    split
    · exact safe_fail rfl
    · refine safe_get fun s hs => ?_
      rcases s.random.below n.toInt.toNat with ⟨m, random⟩
      exact safe_bind (safe_set (hs.congr rfl rfl)) fun _ _ => safe_pure ⟨.integer _, rfl⟩

theorem safe_readInput {a : Argument} {name : String} (ho : a.origin = some name)
    (h : env.scopes.find? name = some Ty.literal) : Safe env (readInput line [a]) (·.HasType Ty.boolean) := by
  refine safe_bind safe_readLine fun text _ => ?_
  cases text with
  | none => exact safe_pure ⟨.boolean _, rfl⟩
  | some text =>
    simp only [ho]
    exact safe_bind (safe_store h (.literal text) rfl) fun _ _ => safe_pure ⟨.boolean _, rfl⟩

/-- What the check of a call makes sure of, for its arguments. -/
structure Suits (env : Env) (b : Builtin) (args : List Argument) (types : List Ty) : Prop where
  typed : List.Forall₂ (Argument.HasType env) args types
  arity : b.arity.admits args.length = true
  domain : ∀ i v, (args.map (·.value))[i]? = some v → (b.domain i).admits v.type = true ∧ (b.domain i).Holds v
  assignable : ∀ i a, args[i]? = some a → b.domain i = .literalVariable → ∃ name, a.origin = some name
  order : Check.oneOrder b types = true
  settled : b.isSettled types = true

theorem suits_of_function (hf : Check.function line b types (args.map (·.origin.isSome)) = .ok τ)
    (hs : b.isSettled types = true) (hargs : List.Forall₂ (Argument.HasType env) args types) :
    Suits env b args types ∧ τ = b.result types := by
  obtain ⟨ha, hd, ho, rfl⟩ := Check.function_ok hf
  have htypes := Argument.types_of_forall₂ hargs
  have hadmits : ∀ i a, args[i]? = some a → (b.domain i).admits a.value.type = true ∧
      (b.domain i = .literalVariable → a.origin.isSome = true) := by
    intro i a hi
    refine hd i _ _ ?_ (by rw [List.getElem?_map, hi, Option.map_some])
    rw [← htypes, List.getElem?_map, List.getElem?_map, hi, Option.map_some, Option.map_some]
  refine ⟨⟨hargs, hargs.length_eq ▸ ha, fun i v hv => ?_, fun i a hi hl => ?_, ho, hs⟩, rfl⟩
  · have hsolid := Argument.solid_of_forall₂ hargs v (List.mem_of_getElem? hv)
    rw [List.getElem?_map, Option.map_eq_some_iff] at hv
    obtain ⟨a, hi, rfl⟩ := hv
    exact ⟨(hadmits i a hi).1, Domain.holds hsolid.hasType (hadmits i a hi).1⟩
  · exact Option.isSome_iff_exists.mp ((hadmits i a hi).2 hl)

/-- What a function does with arguments that the check lets through. -/
theorem safe_perform (h : Suits env b args types) : Safe env (b.perform line args) (·.HasType (b.result types)) := by
  obtain ⟨hargs, ha, hdom, hvar, ho, hs⟩ := h
  have htypes := Argument.types_of_forall₂ hargs
  have hsolid := Argument.solid_of_forall₂ hargs
  unfold perform
  split
  · rw [← htypes]
    refine safe_drawRandom fun v hv => ?_
    obtain ⟨i, hi⟩ := List.getElem?_of_mem hv
    have := (hdom i v hi).2
    rwa [domain_single rfl] at this
  · obtain ⟨a, rfl⟩ : ∃ a, args = [a] := List.length_eq_one_iff.mp (beq_iff_eq.mp ha)
    obtain ⟨name, hname⟩ := hvar 0 a rfl rfl
    obtain _ | ⟨htyped, hnil⟩ := hargs
    cases hnil
    have hlit := htyped.origin name hname
    obtain ⟨s, hv⟩ : Domain.literal.Holds a.value := (hdom 0 a.value rfl).2
    rw [← htyped.value.type, hv] at hlit
    exact safe_readInput hname hlit
  · obtain _ | ⟨htyped, hnil⟩ := hargs
    cases hnil
    exact safe_bind safe_print fun _ _ => safe_pure htyped.value
  · rename_i hrandom hinput hprint
    rw [← htypes] at ho hs ⊢
    refine safe_lift (lands_compute ⟨?_, ?_, ?_⟩ hsolid ?_ (fun i v hi => (hdom i v hi).2) ho hs)
    · exact fun hb => hrandom hb
    · exact fun hb => hinput hb
    · rintro rfl
      obtain ⟨a, rfl⟩ : ∃ a, args = [a] := List.length_eq_one_iff.mp (beq_iff_eq.mp ha)
      exact hprint a rfl rfl
    · rwa [List.length_map]

/-- A call that the check lets through. -/
theorem safe_call (h : Suits env b args types) : Safe env (b.call line args) (·.HasType (b.result types)) := by
  have hsolid := Argument.solid_of_forall₂ h.typed
  have hmisfit : b.misfit? (args.map (·.value.type)) = none := by
    refine misfit?_of_admits fun i t ht => ?_
    rw [List.getElem?_map, Option.map_eq_some_iff] at ht
    obtain ⟨a, ha, rfl⟩ := ht
    exact (h.domain i a.value (by rw [List.getElem?_map, ha, Option.map_some])).1
  have hnull : (args.any fun a => a.value.isNull) = false := by
    rw [List.any_eq_false]
    intro a ha
    rw [(hsolid a.value (List.mem_map_of_mem ha)).isNull]
    exact nofun
  simp only [call, hmisfit, hnull, Bool.and_false, Bool.false_eq_true, if_false]
  exact safe_perform h

end Builtin
/-! ## Calls of methods -/

namespace Run

variable {o : Operand} {m : Member} {args : List Value} {types : List Ty} {r τ : Ty} {name : String}

theorem safe_mutate (ho : env.scopes.find? name = some r) (h : Check.Method r m types τ) (hm : m.isMutator = true)
    (hargs : List.Forall₂ Value.HasType args types) : Safe env (mutate line name m args) fun _ => True := by
  intro s hs
  obtain ⟨slot, hf, rfl, hslot⟩ := hs.find? ho
  obtain ⟨hstays, -⟩ := Value.stays_mutate hslot h hm hargs
  rw [ends_mutate, hf]
  refine ⟨fun slot' he => ?_, nofun⟩
  cases he
  refine ⟨fun w hw => ⟨?_, trivial⟩, fun w c hw => ⟨?_, ?_⟩⟩
  · have hw' : w.HasType slot.type := by simpa only [hw] using hstays.type
    have hslot' : slot.withValue w = ⟨slot.type, w⟩ := by
      rw [Slot.withValue, adopt_of_kind hslot.tySolid.kind_ne]
    rw [hslot']
    exact hs.update hf hw'
  · exact hs.update hf (by simpa only [hw] using hstays.type)
  · have houtcome := hstays.outcome
    rw [hw] at houtcome
    exact houtcome

/-- A method of a value that is no object. -/
theorem safe_callMember (ho : o.HasType env r) (h : Check.Method r m types τ)
    (hargs : List.Forall₂ Value.HasType args types) : Safe env (callMember line o m args) (·.HasType env τ) := by
  unfold callMember
  split
  · rename_i hm
    split
    · have hτ : τ = r := by
        cases h <;> first | rfl | cases hm
      rw [hτ]
      exact safe_bind (safe_mutate ho h hm hargs) fun _ _ => safe_pure ho
    · rename_i v
      have hv : v.HasType r := ho
      obtain ⟨hstays, rfl⟩ := Value.stays_mutate hv h hm hargs
      rcases hw : v.mutate m args with ⟨w, outcome⟩
      rw [hw] at hstays
      exact safe_bind (safe_lift hstays.outcome) fun _ _ => safe_pure hstays.type
  · rename_i hm
    refine safe_bind (safe_read ho) fun v hv => ?_
    refine safe_bind (safe_lift (Value.lands_access hv h (by simpa using hm) hargs)) fun w hw => safe_pure hw

end Run

/-! ## Expressions -/

/-- What the check of the elements of a collection makes sure of. -/
theorem Expr.types_of_elements {es : List Expr} : ∀ {held u : Ty}, Expr.elementIn env line held es = .ok u →
    ∃ types, Expr.typesIn env es = .ok types ∧
      ∀ vs, List.Forall₂ Value.HasType vs types → Collection.unifyAll held vs = .ok u := by
  induction es with
  | nil =>
    intro held u h
    rw [Expr.elementIn] at h
    cases h
    refine ⟨[], rfl, fun vs hvs => ?_⟩
    cases hvs
    rfl
  | cons e es ih =>
    intro held u h
    rw [Expr.elementIn] at h
    obtain ⟨t, ht, h⟩ := Check.ok_of_bind h
    obtain ⟨w, hw, h⟩ := Check.ok_of_bind h
    obtain ⟨types, htypes, hall⟩ := ih h
    refine ⟨t :: types, ?_, fun vs hvs => ?_⟩
    · rw [Expr.typesIn, ht, htypes]
      rfl
    · obtain _ | ⟨hv, hvs⟩ := hvs
      have hunify : Ty.unify? held t = some w := by
        simp only [Check.element] at hw
        split at hw
        · cases hw
          assumption
        · cases hw
      simp only [Collection.unifyAll, hv.type, hunify]
      exact hall _ hvs

/-- An expression that is a variable has the type of the variable. -/
theorem Expr.find?_of_variable {e : Expr} {name : String} {t : Ty} (he : e.variable? = some name)
    (h : e.typeIn env = .ok t) : env.scopes.find? name = some t := by
  cases e <;> cases he
  rw [Expr.typeIn] at h
  exact Env.find?_of_lookup h

theorem Expr.length_typesIn {es : List Expr} : ∀ {types : List Ty}, Expr.typesIn env es = .ok types →
    types.length = es.length := by
  induction es with
  | nil =>
    intro types h
    rw [Expr.typesIn] at h
    cases h
    rfl
  | cons e es ih =>
    intro types h
    rw [Expr.typesIn] at h
    obtain ⟨t, -, h⟩ := Check.ok_of_bind h
    obtain ⟨ts, hts, h⟩ := Check.ok_of_bind h
    cases h
    exact congrArg (· + 1) (ih hts)

theorem Expr.isVariable_eq (e : Expr) : e.isVariable = e.variable?.isSome := by
  cases e <;> rfl

theorem Check.fields_of_field {target t : Ty} {position : Nat} (ht : target.Solid)
    (h : Check.field line target position = .ok t) :
    ∃ fields, target.fields? = some fields ∧ Ty.field? fields position = some t := by
  simp only [Check.field, ht.isUntyped, Bool.false_eq_true, if_false] at h
  split at h
  · cases h
  · rename_i fields hf
    split at h
    · rename_i u hu
      cases h
      exact ⟨fields, hf, hu⟩
    · cases h

/-- A field of a tuple has its declared type. -/
theorem Row.lands_field {vs : List Value} {fields : List Ty} {position : Nat} {t : Ty}
    (htypes : vs.map Value.type = fields) (hvs : ∀ v ∈ vs, v.Solid) (h : Ty.field? fields position = some t) :
    Lands (Row.field ⟨vs, fields⟩ position) (·.HasType t) := by
  simp only [Ty.field?] at h
  split at h
  · cases h
  · rename_i hp
    rw [← htypes, List.getElem?_map, Option.map_eq_some_iff] at h
    obtain ⟨v, hv, rfl⟩ := h
    simp only [Row.field, hp, if_false, hv]
    exact (hvs v (List.mem_of_getElem? hv)).hasType

mutual

/-- An expression has the type that the check tells. -/
theorem Expr.safe_operand (held : List Value) (e : Expr) {τ : Ty} (h : e.typeIn env = .ok τ)
    (hc : e.isCore env = true) : Safe env (e.operand held) (·.HasType env τ) := by
  cases e with
  | constant line c =>
    rw [Expr.typeIn] at h
    rw [Expr.operand]
    cases h
    cases c with
    | null => cases hc
    | boolean b => exact safe_pure ⟨.boolean b, rfl⟩
    | integer n => exact safe_pure ⟨.integer n, rfl⟩
    | numeric x => exact safe_pure ⟨.numeric x, rfl⟩
    | imaginary x => exact safe_pure ⟨.imaginary _, rfl⟩
    | literal s => exact safe_pure ⟨.literal s, rfl⟩
  | var line name =>
    rw [Expr.typeIn] at h
    rw [Expr.operand]
    have hf : env.scopes.find? name = some τ := Env.find?_of_lookup h
    exact safe_bind (safe_lookup hf) fun _ _ => safe_pure hf
  | unary line op e =>
    rw [Expr.typeIn] at h
    rw [Expr.operand]
    rw [Expr.isCore] at hc
    obtain ⟨t, ht, h⟩ := Check.ok_of_bind h
    split at h
    · rename_i w hw
      cases h
      refine safe_bind (Expr.safe_operand held e ht hc) fun o ho => safe_bind (safe_read ho) fun v hv => ?_
      refine safe_bind (safe_lift (UnaryOp.lands hv hw)) fun x hx => ?_
      exact safe_bind (safe_counted hx) fun y hy => safe_pure hy
    · cases h
  | binary line op left right =>
    rw [Expr.typeIn] at h
    rw [Expr.operand]
    rw [Expr.isCore, Bool.and_eq_true, Bool.and_eq_true, bne_iff_ne] at hc
    obtain ⟨t, ht, h⟩ := Check.ok_of_bind h
    obtain ⟨u, hu, h⟩ := Check.ok_of_bind h
    split at h
    · rename_i w hw
      cases h
      refine safe_bind (Expr.safe_operand held left ht hc.1.2) fun l hl => ?_
      split
      · rename_i hop
        have hlogical : op.isLogical = true := by
          rcases hop with rfl | rfl <;> rfl
        refine safe_bind (safe_shortCircuit hlogical hl (Expr.safe_operand held right hu hc.2) hw) fun v hv => ?_
        exact safe_pure hv
      · refine safe_bind (Expr.safe_operand _ right hu hc.2) fun r hr => ?_
        exact safe_bind (safe_combine hc.1.1 hl hr hw) fun v hv => safe_pure hv
    · cases h
  | call line name arguments =>
    rw [Expr.typeIn] at h
    rw [Expr.operand]
    obtain ⟨types, htypes, h⟩ := Check.ok_of_bind h
    rw [Expr.isCore, htypes, Bool.and_eq_true] at hc
    refine safe_get fun s hs => ?_
    have himported : s.imported? name = none := by simp [State.imported?, hs.imports]
    have hknown : env.imported? name = none := by simp [Env.imported?, hs.known]
    simp only [Check.call, hknown] at h
    simp only [himported]
    split at h
    · cases h
    · rename_i b hb
      simp only [hb] at hc ⊢
      have harity := (Check.function_ok h).1
      rw [Expr.length_typesIn htypes] at harity
      simp only [harity, if_true]
      refine safe_bind (Expr.safe_arguments held arguments htypes hc.1) fun args hargs => ?_
      have hassignable : arguments.map Expr.isVariable = args.map (·.origin.isSome) := by
        have hsome := congrArg (List.map Option.isSome) hargs.2
        rw [List.map_map, List.map_map] at hsome
        exact (List.map_congr_left fun e _ => Expr.isVariable_eq e).trans hsome.symm
      rw [hassignable] at h
      obtain ⟨hsuits, rfl⟩ := Builtin.suits_of_function h hc.2 hargs.1
      exact safe_bind (Builtin.safe_call hsuits) fun v hv => safe_pure hv
  | member line receiver m arguments =>
    rw [Expr.typeIn] at h
    rw [Expr.operand]
    obtain ⟨r, hr, h⟩ := Check.ok_of_bind h
    obtain ⟨types, htypes, h⟩ := Check.ok_of_bind h
    rw [Expr.isCore, Bool.and_eq_true] at hc
    refine safe_bind (Expr.safe_operand held receiver hr hc.1) fun o ho => safe_bind (safe_read ho) fun v hv => ?_
    have hmethod := Check.member_method hv.tySolid h
    split
    · exact nomatch hv.solid
    · refine safe_bind (Expr.safe_arguments _ arguments htypes hc.2) fun args hargs => ?_
      exact safe_callMember ho hmethod (Argument.values_of_forall₂ hargs.1)
  | index line target position =>
    rw [Expr.typeIn] at h
    rw [Expr.operand]
    rw [Expr.isCore, Bool.and_eq_true] at hc
    obtain ⟨t, ht, h⟩ := Check.ok_of_bind h
    obtain ⟨u, hu, h⟩ := Check.ok_of_bind h
    refine safe_bind (Expr.safe_operand held target ht hc.1) fun o ho => ?_
    refine safe_bind (Expr.safe_operand _ position hu hc.2) fun p hp => safe_bind (safe_read hp) fun i hi => ?_
    simp only [Check.index] at h
    split at h
    · cases h
    · rename_i hadm
      obtain ⟨n, rfl⟩ : Domain.integer.Holds i := Domain.holds hi (by simpa using hadm)
      refine safe_bind (P := fun _ => True) (safe_pure trivial) fun n _ => safe_bind (safe_read ho) fun v hv => ?_
      rw [hv.tySolid.isUntyped, if_neg Bool.false_ne_true] at h
      split at h
      · rename_i he
        cases h
        obtain ⟨items, rfl, hitems⟩ := hv.elements he
        refine safe_bind (P := (· = ⟨τ, items⟩)) (safe_pure rfl) fun c hcol => ?_
        subst hcol
        exact safe_bind (safe_lift (Collection.lands_get hitems)) fun w hw => safe_pure hw
      · cases h
  | field line target position =>
    rw [Expr.typeIn] at h
    rw [Expr.operand]
    rw [Expr.isCore] at hc
    obtain ⟨t, ht, h⟩ := Check.ok_of_bind h
    refine safe_bind (Expr.safe_operand held target ht hc) fun o ho => safe_bind (safe_read ho) fun v hv => ?_
    obtain ⟨fields, hf, hp⟩ := Check.fields_of_field hv.tySolid h
    obtain ⟨vs, rfl, htypes, hsolid⟩ := hv.row hf
    refine safe_bind (P := (· = ⟨vs, fields⟩)) (safe_pure rfl) fun r hrow => ?_
    subst hrow
    exact safe_bind (safe_lift (Row.lands_field htypes hsolid hp)) fun w hw => safe_pure hw
  | collection line elements =>
    rw [Expr.typeIn] at h
    rw [Expr.operand]
    rw [Expr.isCore, Bool.and_eq_true] at hc
    obtain ⟨u, hu, h⟩ := Check.ok_of_bind h
    cases h
    obtain ⟨types, htypes, hunify⟩ := Expr.types_of_elements hu
    refine safe_bind (Expr.safe_arguments held elements htypes hc.2) fun args hargs => ?_
    have hvalues := hunify _ (Argument.values_of_forall₂ hargs.1)
    have hsolid := Argument.solid_of_forall₂ hargs.1
    have hne : args.map (·.value) ≠ [] := by
      have hlength : args.length = elements.length := by
        simpa only [List.length_map] using congrArg List.length hargs.2
      intro hnil
      rw [List.map_eq_nil_iff.mp hnil, List.length_nil] at hlength
      simp [List.length_eq_zero_iff.mp hlength.symm] at hc
    obtain ⟨v, vs, hcons⟩ := List.exists_cons_of_ne_nil hne
    rw [hcons] at hvalues hsolid ⊢
    exact safe_bind (safe_lift (Collection.lands_ofValues hsolid hvalues)) fun c hcol => safe_pure hcol

/-- Arguments have the types that the check tells. -/
theorem Expr.safe_arguments (held : List Value) (es : List Expr) {types : List Ty}
    (h : Expr.typesIn env es = .ok types) (hc : Expr.areCore env es = true) :
    Safe env (Expr.arguments held es) fun args =>
      List.Forall₂ (Argument.HasType env) args types ∧ args.map (·.origin) = es.map Expr.variable? := by
  cases es with
  | nil =>
    rw [Expr.typesIn] at h
    rw [Expr.arguments]
    cases h
    exact safe_pure ⟨.nil, rfl⟩
  | cons e es =>
    rw [Expr.typesIn] at h
    rw [Expr.arguments]
    rw [Expr.areCore, Bool.and_eq_true] at hc
    obtain ⟨t, ht, h⟩ := Check.ok_of_bind h
    obtain ⟨ts, hts, h⟩ := Check.ok_of_bind h
    cases h
    refine safe_bind (Expr.safe_operand held e ht hc.1) fun o ho => safe_bind (safe_read ho) fun v hv => ?_
    refine safe_bind (Expr.safe_arguments _ es hts hc.2) fun args hargs => safe_pure ⟨?_, ?_⟩
    · exact .cons ⟨hv, fun name hname => Expr.find?_of_variable hname ht⟩ hargs.1
    · rw [List.map_cons, List.map_cons, hargs.2]

end

/-- The value of an expression has the type that the check tells. -/
theorem Expr.safe_eval {held : List Value} {e : Expr} {τ : Ty} (h : e.typeIn env = .ok τ)
    (hc : e.isCore env = true) : Safe env (e.eval held) (·.HasType τ) :=
  safe_bind (e.safe_operand held h hc) fun _ ho => safe_read ho

end Crunch
