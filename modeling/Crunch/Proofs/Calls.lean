import Crunch.Proofs.Signatures
import Crunch.Proofs.Typed

/-!
# Crunch.Proofs.Calls

Calls of functions do what their signatures say.

* `Argument.IsCurrent`: an argument that is a variable has the value of the variable.
* `Builtin.FailsIn`: the errors of a call in a state.
* `Slot.Deep`: the value of a variable whose type is a collection type without a kind is a
  collection, or a null of one.
* `Builtin.call_honest`: in every state that activities lead to, a call gives a value of the declared
  type or fails with one of the errors of the function.
-/

namespace Crunch

/-! ## Variables without a kind -/

namespace Value

theorem level_ofOperation {α : Type} (r : Collection × Except Fault.Cause α) :
    0 < (ofOperation r).1.type.level := by
  simp [ofOperation, Collection.value, type]

variable {v : Value}

theorem level_insert (h : 0 < v.type.level) (i : Int64) (item : Value) (m : Member) :
    0 < (v.insert i item m).1.type.level := by
  cases v with
  | null t => exact h
  | collection e items =>
    cases item with
    | collection e' items' =>
      simp only [insert]
      split <;> exact level_ofOperation _
    | _ => exact level_ofOperation _
  | _ => cases h

theorem level_put (h : 0 < v.type.level) (i : Int64) (item : Value) (m : Member) :
    0 < (v.put i item m).1.type.level := by
  cases v with
  | null t => exact h
  | collection e items => exact level_ofOperation _
  | _ => cases h

theorem level_append (h : 0 < v.type.level) (item : Value) (m : Member) : 0 < (v.append item m).1.type.level := by
  unfold append
  split
  · exact level_insert h _ item m
  · exact h

theorem level_withIndex {index : Value} {step : Int64 → Value × Except Fault.Cause Unit} (h : 0 < v.type.level)
    (hs : ∀ i, 0 < (step i).1.type.level) : 0 < (v.withIndex index step).1.type.level := by
  unfold withIndex
  split
  · exact hs _
  · exact h

theorem level_mutate (h : 0 < v.type.level) (m : Member) (args : List Value) :
    0 < (v.mutate m args).1.type.level := by
  unfold mutate
  split
  · rename_i p w
    exact (type_setField v p w).symm ▸ h
  · exact level_withIndex h fun i => level_insert h i _ _
  · exact level_withIndex h fun i => level_put h i _ _
  · exact level_append h _ _
  · exact level_withIndex h fun i => (type_delete v i _).symm ▸ h
  · split <;> exact h

end Value

namespace Slot

/-- The value of a variable whose type is a collection type without a kind is a collection, or a
null of one. -/
def Deep (slot : Slot) : Prop := slot.type.kind = .noType → 0 < slot.type.level → 0 < slot.value.type.level

theorem Writes.deep {slot slot' : Slot} (h : slot.Writes slot') (hd : slot.Deep) : slot'.Deep := by
  by_cases hk : slot.type.kind = .noType
  · by_cases hl : 0 < slot.type.level
    · intro _ _
      cases h with
      | store hst =>
        obtain ⟨w, hw, rfl⟩ := value_of_store hst
        have ht : w.type = slot.type := Value.type_of_coerce hw (Ty.isExact_of_level_pos hl)
        exact ht.symm ▸ hl
      | @mutate m args w hm =>
        have := Value.level_mutate (hd hk hl) m args
        rwa [hm] at this
      | @spoil m args w c hm =>
        have := Value.level_mutate (hd hk hl) m args
        rwa [hm] at this
    · -- an untyped variable has either adopted a type with a kind, or is untyped still
      have hu : slot.type.isUntyped = true := Ty.isUntyped_iff.mpr ⟨hk, by omega⟩
      have hadopt : ∀ w : Value, (slot.withValue w).Deep := by
        intro w hk' hl'
        simp only [withValue, adopt, hk, hu, true_and, true_or, and_true] at hk' hl'
        split at hk'
        · rename_i hw
          exact absurd hk' hw
        · rename_i hw
          rw [if_neg hw] at hl'
          exact absurd hl' hl
      cases h with
      | store hst =>
        obtain ⟨w, -, rfl⟩ := value_of_store hst
        exact hadopt w
      | mutate hm => exact hadopt _
      | spoil hm => exact fun _ hl' => absurd hl' hl
  · exact fun hk' => absurd (h.type hk ▸ hk') hk

/-- Whether a variable can take a literal when its value is one of those that `input` takes. -/
theorem store_literal {slot : Slot} (hs : slot.Sound) (hd : slot.Deep)
    (h : Domain.literalVariable.admits slot.value.type = true) (text : String) :
    (∃ slot', slot.store (.literal text) = .ok slot') ∨
      (slot.type.isScalar .literal = true ∧ slot.type ≠ Ty.literal ∧
        ∃ what, slot.store (.literal text) = .error (.mismatch what)) := by
  have hl : slot.value.type.level = 0 := by
    simp only [Domain.admits, Bool.or_eq_true] at h
    rcases h with h | h
    · exact (Ty.isUntyped_iff.mp h).2
    · exact (Ty.isScalar_iff.mp h).1
  by_cases hk : slot.type.kind = .noType
  · have hu : slot.type.isUntyped = true := by
      refine Ty.isUntyped_iff.mpr ⟨hk, Nat.eq_zero_of_not_pos fun hp => ?_⟩
      have := hd hk hp
      omega
    refine .inl ⟨slot.withValue (.literal text), ?_⟩
    simp [store, Value.coerce_untyped _ hu, Except.map]
  · have hscalar : slot.type.isScalar .literal = true := by
      rcases hs hk with ht | ⟨hx, ht⟩
      · rw [ht] at h
        simpa [Domain.admits, Ty.isUntyped, hk] using h
      · have hnum : slot.type.kind.isNumber = true := by
          have hu : slot.type.isUntyped = false := by simp [Ty.isUntyped, hk]
          simp only [Ty.isExact, hu, Ty.isNumber, Bool.not_false, Bool.true_and, Bool.not_eq_false',
            Bool.and_eq_true] at hx
          exact hx.1.2
        rw [ht] at h
        generalize slot.type.kind = k at h hnum
        cases k <;> first | exact absurd h (by decide) | cases hnum
    by_cases he : slot.type = Ty.literal
    · refine .inl ⟨slot.withValue (.literal text), ?_⟩
      rw [store, he]
      rfl
    · refine .inr ⟨hscalar, he, .storing Ty.literal slot.type, ?_⟩
      obtain ⟨hlevel, hkind⟩ := Ty.isScalar_iff.mp hscalar
      have hu : slot.type.isUntyped = false := by simp [Ty.isUntyped, hk]
      have hacc : slot.type.accepts Ty.literal = false := by
        have hlit : Ty.literal.isUntyped = false ∧ Ty.literal.level = 0 ∧ Ty.literal.kind = .literal := ⟨rfl, rfl, rfl⟩
        simp [Ty.accepts, hu, hlit, hlevel, hkind, Kind.isNumber, he]
      simp [store, Value.coerce, Value.type, hu, hacc, Except.map]

end Slot

/-! ## Calls -/

/-- An argument that is a variable has the value of the variable. -/
def Argument.IsCurrent (a : Argument) (s : State) : Prop :=
  ∀ name, a.origin = some name → ∃ slot, s.scopes.find? name = some slot ∧ slot.value = a.value

namespace Builtin

open Run

variable {b : Builtin} {args : List Argument} {line : Nat} {s : State}

/-- The errors of a call: those of the function on the arguments, and those of `input`, which stores
a literal into its argument. That is no variable, or one of a literal type that carries fields or a
name. -/
inductive FailsIn (b : Builtin) (args : List Argument) (s : State) : Fault.Cause → Prop where
  | argument {c : Fault.Cause} : b.FailsOn (args.map (·.value)) c → FailsIn b args s c
  | temporary {what : Mismatch} {a : Argument} : b = .input → args = [a] → a.origin = none →
      FailsIn b args s (.mismatch what)
  | structured {what : Mismatch} {a : Argument} {name : String} {slot : Slot} : b = .input → args = [a] →
      a.origin = some name → s.scopes.find? name = some slot → slot.type.isScalar .literal = true →
      slot.type ≠ Ty.literal → FailsIn b args s (.mismatch what)

theorem FailsIn.value {c : Fault.Cause} (h : c.isValueError = true) : FailsIn b args s c := .argument (.value h)

/-- A call that fails at its line, with one of the errors of the function. -/
def Blames (line : Nat) (b : Builtin) (args : List Argument) (s : State) (h : Halt Fault) : Prop :=
  ∃ c, h = .error ⟨line, c⟩ ∧ b.FailsIn args s c

theorem ends_of_yields {α : Type} {r : Except Fault.Cause α} {P : α → Prop} {E : Fault.Cause → Prop}
    (h : Yields r P E) (he : ∀ c, E c → b.FailsIn args s c) :
    (lift line r).Ends s (fun a _ => P a) fun e _ => Blames line b args s e := by
  cases r with
  | ok a => exact h
  | error c => exact ⟨c, rfl, he c h⟩

theorem ends_drawRandom (ha : Builtin.random.arity.admits args.length = true)
    (hdom : ∀ a ∈ args, Domain.integer.Holds a.value) :
    (drawRandom line (args.map (·.value))).Ends s
      (fun w _ => w.type = Builtin.random.result (args.map (·.value.type)))
      fun h _ => Blames line .random args s h := by
  cases args with
  | nil => rfl
  | cons a rest =>
    obtain ⟨n, hn⟩ := hdom a List.mem_cons_self
    simp only [List.map_cons, drawRandom, hn, Value.integer?, lift, ends_bind, ends_pure]
    split
    · exact ⟨_, rfl, .value rfl⟩
    · rfl

theorem ends_readInput {a : Argument} (hsound : s.scopes.All Slot.Sound) (hdeep : s.scopes.All Slot.Deep)
    (hcur : a.IsCurrent s) (hdom : Domain.literalVariable.admits a.value.type = true) :
    (readInput line [a]).Ends s (fun w _ => w.type = Ty.boolean) fun h _ => Blames line .input [a] s h := by
  have hread : (readLine line).Ends s (fun _ t => t.scopes = s.scopes) fun h _ => Blames line .input [a] s h := by
    simp only [readLine, ends_bind, ends_checkStop, ends_get]
    refine ⟨fun _ => ?_, fun _ => ⟨_, rfl, .value rfl⟩⟩
    split
    · rfl
    · simp only [ends_bind, ends_set]
      split
      · rfl
      · exact ⟨_, rfl, .value rfl⟩
  simp only [readInput, ends_bind]
  refine hread.mono (fun text t ht => ?_) fun _ _ => id
  cases text with
  | none => rfl
  | some text =>
    cases ho : a.origin with
    | none => exact ⟨_, rfl, .temporary rfl rfl ho⟩
    | some name =>
      obtain ⟨slot, hf, hv⟩ := hcur name ho
      have hstore := Slot.store_literal (hsound.find hf) (hdeep.find hf) (hv ▸ hdom) text
      simp only [ends_bind, ends_store, ends_pure, ht, hf, Option.some.injEq, reduceCtorEq, false_implies, and_true]
      rintro _ rfl
      refine ⟨fun _ _ => rfl, fun c hc => ?_⟩
      rcases hstore with ⟨slot', hok⟩ | ⟨hs, hne, what, herr⟩
      · rw [hok] at hc
        cases hc
      · rw [herr] at hc
        cases hc
        exact ⟨_, rfl, .structured rfl rfl ho hf hs hne⟩

/-- What a function does with arguments of its domains. -/
theorem ends_perform (hsound : s.scopes.All Slot.Sound) (hdeep : s.scopes.All Slot.Deep)
    (ha : b.arity.admits args.length = true) (hd : ∀ i a, args[i]? = some a → (b.domain i).admits a.value.type = true)
    (hcur : b = .input → ∀ a ∈ args, a.IsCurrent s)
    (hn : b.propagatesNull = true → ∀ a ∈ args, a.value.isNull = false) :
    (b.perform line args).Ends s (fun w _ => b.Returns (args.map (·.value)) w) fun h _ => Blames line b args s h := by
  have hdom : ∀ i v, (args.map (·.value))[i]? = some v → (b.domain i).admits v.type = true := by
    intro i v hv
    rw [List.getElem?_map, Option.map_eq_some_iff] at hv
    obtain ⟨a, hi, rfl⟩ := hv
    exact hd i a hi
  have ha' : b.arity.admits (args.map (·.value)).length = true := by rwa [List.length_map]
  have argument : ∀ c, b.FailsOn (args.map (·.value)) c → b.FailsIn args s c := fun _ => .argument
  have compute : b ≠ .random → b ≠ .input → b ≠ .print →
      (lift line (b.compute (args.map (·.value)))).Ends s (fun w _ => b.Returns (args.map (·.value)) w)
        fun h _ => Blames line b args s h := by
    intro hrandom hinput hprint
    cases hp : b.propagatesNull with
    | true =>
      have hn' : ∀ v ∈ args.map (·.value), v.isNull = false := List.forall_mem_map.mpr (hn hp)
      have hholds : ∀ i v, (args.map (·.value))[i]? = some v → (b.domain i).Holds v := fun i v hv =>
        (Value.IsA.of_isNull (hn' v (List.mem_of_getElem? hv))).holds (hdom i v hv)
      exact ends_of_yields ((yields_compute hrandom hp ha' hn' hholds).mono (fun _ h => h.2) fun _ => id) argument
    | false =>
      refine ends_of_yields ((delivers_lenient ⟨hinput, hprint⟩ hp ha' hdom).mono (fun w hw => ?_) fun _ => id)
        fun c => .value
      cases b <;> first | exact hw | cases hp
  unfold perform
  split
  · refine (ends_drawRandom ha fun a hmem => ?_).mono (fun w t hw => ?_) fun _ _ => id
    · obtain ⟨i, hi⟩ := List.getElem?_of_mem hmem
      have := hd i a hi
      rw [domain_single rfl] at this
      exact (Value.IsA.of_isNull (hn rfl a hmem)).holds this
    · simpa [Returns, Function.comp_def] using hw
  · obtain ⟨a, rfl⟩ : ∃ a, args = [a] := List.length_eq_one_iff.mp (beq_iff_eq.mp ha)
    exact ends_readInput hsound hdeep (hcur rfl a List.mem_cons_self) (hd 0 a rfl)
  · exact rfl
  · rename_i hrandom hinput hprint
    refine compute (fun hb => hrandom hb) (fun hb => hinput hb) ?_
    rintro rfl
    obtain ⟨a, rfl⟩ : ∃ a, args = [a] := List.length_eq_one_iff.mp (beq_iff_eq.mp ha)
    exact hprint a rfl rfl

end Builtin

/-- Runs leave the values of variables without a kind as deep as their types. -/
theorem frame_deep : Frame fun _ ss ts => ss.All Slot.Deep → ts.All Slot.Deep :=
  Frame.all Slot.Writes.deep fun _ _ => id

namespace Builtin

/-- The null that a null argument leads to has the type of the result. -/
theorem returns_null {b : Builtin} {vs : List Value} (h : ∃ v ∈ vs, v.isNull = true) :
    b.Returns vs (.null (b.result (vs.map Value.type))) := by
  unfold Returns
  split
  · rename_i v e
    refine (BinaryOp.power.landing_of_isNull ?_ _).symm
    simpa using h
  all_goals first | exact .inl rfl | rfl

/-- In every state that activities lead to, a call with as many arguments as the function takes, all
of its domains, gives a value of the declared type, or fails with one of the errors of the function.
The declared type is missed only by roots, logarithms and negative powers of integers. -/
theorem call_honest (engine : Pattern.Engine) (random : Random) (input : List UInt8) (disk : Disk)
    (before : List Activity) (line : Nat) (b : Builtin) (args : List Argument) (ha : b.arity.admits args.length = true)
    (hd : ∀ i a, args[i]? = some a → (b.domain i).admits a.value.type = true)
    (hcur : b = .input → ∀ a ∈ args, a.IsCurrent (Activity.afterAll (State.fresh engine random input disk) before)) :
    (b.call line args).Ends (Activity.afterAll (State.fresh engine random input disk) before)
      (fun w _ => b.Returns (args.map (·.value)) w)
      fun h _ => Blames line b args (Activity.afterAll (State.fresh engine random input disk) before) h := by
  have hsound := Activity.afterAll_all frame_sound (Activity.all_fresh _ engine random input disk) before
  have hdeep := Activity.afterAll_all frame_deep (Activity.all_fresh _ engine random input disk) before
  have hfit : b.misfit? (args.map (·.value.type)) = none := by
    refine misfit?_of_admits fun i t ht => ?_
    rw [List.getElem?_map, Option.map_eq_some_iff] at ht
    obtain ⟨a, hi, rfl⟩ := ht
    exact hd i a hi
  simp only [call, hfit]
  split
  · rename_i hnull
    simp only [Bool.and_eq_true, List.any_eq_true] at hnull
    obtain ⟨-, a, hmem, hn⟩ := hnull
    have hret := returns_null (b := b) ⟨a.value, List.mem_map_of_mem hmem, hn⟩
    rwa [List.map_map] at hret
  · rename_i hnull
    refine ends_perform hsound hdeep ha hd hcur fun hp a hmem => ?_
    simp only [hp, Bool.true_and, Bool.not_eq_true, List.any_eq_false] at hnull
    simpa using hnull a hmem

/-- A line is read into a variable that has been defined as a null of literals. -/
theorem call_honest_input :
    (Builtin.input.call 1 [⟨.null Ty.literal, some "x"⟩]).Ends
      (Activity.afterAll (State.fresh .bundled ⟨[], 0, []⟩ [97, 10] ⟨[], []⟩) [.define "x" (.null Ty.literal)])
      (fun w _ => Builtin.input.Returns [.null Ty.literal] w)
      fun h _ => Blames 1 .input [⟨.null Ty.literal, some "x"⟩]
        (Activity.afterAll (State.fresh .bundled ⟨[], 0, []⟩ [97, 10] ⟨[], []⟩)
          [.define "x" (.null Ty.literal)]) h := by
  refine call_honest .bundled ⟨[], 0, []⟩ [97, 10] ⟨[], []⟩ [.define "x" (.null Ty.literal)] 1 .input
    [⟨.null Ty.literal, some "x"⟩] rfl ?_ ?_
  · intro i a hi
    obtain rfl := List.mem_singleton.mp (List.mem_of_getElem? hi)
    rw [domain_single rfl]
    rfl
  · intro _ a ha name hname
    obtain rfl := List.mem_singleton.mp ha
    cases hname
    exact ⟨⟨Ty.literal, .null Ty.literal⟩, rfl, rfl⟩

/-- A variable defined as a null of literals that carry a field takes no line of input, although
`input` admits it. -/
theorem input_rejects_structured_variable :
    let t : Ty := .row .literal 0 [Ty.integer]
    let s := Activity.afterAll (State.fresh .bundled ⟨[], 0, []⟩ [97, 10] ⟨[], []⟩) [.define "x" (.null t)]
    (Builtin.input.domain 0).admits t = true ∧ Argument.IsCurrent ⟨.null t, some "x"⟩ s ∧
      ∃ s', Builtin.input.call 1 [⟨.null t, some "x"⟩] s =
        .error (.error ⟨1, .mismatch (.storing Ty.literal t)⟩) s' := by
  refine ⟨rfl, ?_, _, rfl⟩
  rintro _ ⟨⟩
  exact ⟨⟨.row .literal 0 [Ty.integer], .null (.row .literal 0 [Ty.integer])⟩, rfl, rfl⟩

end Builtin
end Crunch
