import Crunch.Proofs.Aliases
import Crunch.Proofs.Frame

/-!
# Crunch.Proofs.Holding

Objects that variables or values in use refer to are never given up.

* `NativeType.Relays`: native types whose methods return, store and pass on only references that they have
  been given.
* `State.Has`, `State.Provides`: the objects that are there, and values all of whose objects are.
* `State.Whole`: the objects of all variables are there.
* `Run.Retains`: a computation keeps the state whole and the objects of the values around it, and those of its
  result are there.
* `Expr.retains_operand`, `Statement.retains_exec`, `Program.retains_exec`: all expressions, statements and
  scripts do.
-/

namespace Crunch

open Run

/-! ## Native types -/

/-- What a method returns, stores and passes on refers to objects of a set only, as long as what it is given
by other methods does. -/
def Action.Relays (K : Nat → Prop) : Action → Prop
  | .done v => v.Within K
  | .fail _ => True
  | .keep _ next => next.Relays K
  | .store _ v next => v.Within K ∧ ∀ r, (next r).Relays K
  | .call _ _ given next => (∀ a ∈ given, a.value.Within K) ∧ ∀ r, Gives r (·.Within K) → (next r).Relays K
  | .look next => ∀ d, (next d).Relays K
  | .write _ next => next.Relays K

/-- Instances hold no values: a method knows of no other objects than those of its arguments. -/
def NativeType.Relays (t : NativeType) : Prop :=
  ∀ K i method args, (∀ a ∈ args, a.value.Within K) → (t.invoke i method args).Relays K

theorem Action.relays_ofExcept {K : Nat → Prop} {r : Except Fault.Cause Value} (h : Gives r (·.Within K)) :
    (ofExcept r).Relays K := by
  cases r with
  | ok v => exact h v rfl
  | error c => trivial

namespace Csv

open Value

theorem relays_nativeType : nativeType.Relays := by
  intro K i method args _
  cases i with
  | dialect d =>
    refine Action.relays_ofExcept ?_
    unfold invoke
    split
    · refine .ite (gives_bare rfl) (gives_bind fun s => ?_)
      split
      · refine gives_pure (within_collection.mpr fun v hv => ?_)
        obtain ⟨f, -, rfl⟩ := List.mem_map.mp hv
        exact within_bare rfl
      · exact gives_error
    · exact gives_bind fun c => gives_bare rfl
    · exact gives_bare rfl
    · exact gives_error
  | _ => trivial

end Csv

namespace OpenFile

open Value

variable {K : Nat → Prop} {f : OpenFile}

theorem relays_finish {path : String} {r : Except OsError (Bool × OpenFile × Disk)} : (finish path r).Relays K := by
  unfold finish
  split
  · trivial
  · exact within_bare rfl

theorem relays_readLine {a : Argument} : (f.readLine a).Relays K := by
  unfold readLine
  split
  · intro d
    simp only [Action.Relays]
    split
    · trivial
    · exact within_bare rfl
    · exact ⟨within_bare rfl, fun r => Action.relays_ofExcept (gives_map fun _ => within_bare rfl)⟩
  · trivial

theorem relays_writeText {s : String} : (f.writeText s).Relays K := by
  unfold writeText
  split
  · intro d
    simp only [Action.Relays]
    split
    · trivial
    · exact within_bare rfl
  · trivial

theorem relays_nativeType : nativeType.Relays := by
  intro K i method args _
  cases i with
  | file f =>
    simp only [nativeType, invoke]
    split
    · exact relays_readLine
    · split
      · trivial
      · exact relays_writeText
    · exact fun d => relays_finish
    · exact fun d => relays_finish
    · exact within_bare rfl
    · trivial
  | _ => trivial

end OpenFile

/-! ## States -/

namespace State

variable {s t : State} {vs ws : List Value}

/-- Whether there is an object of a number. -/
def Has (s : State) (id : Nat) : Prop := ∃ o ∈ s.objects, o.id = id

/-- The objects that values refer to are there. -/
def Provides (s : State) (vs : List Value) : Prop := ∀ v ∈ vs, v.Within s.Has

/-- The objects that variables refer to are there, and native types only relay references. -/
structure Whole (s : State) : Prop where
  natives : s.AllNative NativeType.Relays
  slots : s.scopes.All fun slot => slot.value.Within s.Has

theorem relays_fresh (engine : Pattern.Engine) (random : Random) (input : List UInt8) (disk : Disk) :
    (fresh engine random input disk).AllNative NativeType.Relays := by
  refine ⟨fun t ht => ?_, nofun⟩
  simp only [fresh, bundled, List.mem_cons, List.not_mem_nil, or_false] at ht
  rcases ht with rfl | rfl
  · exact Csv.relays_nativeType
  · exact OpenFile.relays_nativeType

theorem provides_append : s.Provides (vs ++ ws) ↔ s.Provides vs ∧ s.Provides ws := List.forall_mem_append

theorem Provides.sub (h : s.Provides vs) (hw : ∀ w ∈ ws, w ∈ vs) : s.Provides ws := fun w hm => h w (hw w hm)

theorem Provides.grow (h : s.Provides vs) (hst : ∀ id, s.Has id → t.Has id) : t.Provides vs :=
  fun v hv => (h v hv).mono hst

theorem has_iff {id : Nat} : s.Has id ↔ id ∈ s.objects.map (·.id) := by simp [Has]

theorem has_of_ids (h : t.objects.map (·.id) = s.objects.map (·.id)) : t.Has = s.Has :=
  funext fun _ => propext (has_iff.trans (h ▸ has_iff.symm))

theorem find?_of_has {id : Nat} (h : s.Has id) : ∃ o, Heap.find? s id = some o := by
  obtain ⟨o, ho, hid⟩ := h
  exact Option.isSome_iff_exists.mp (List.find?_isSome.mpr ⟨o, ho, beq_iff_eq.mpr hid⟩)

theorem Whole.beside (h : s.Whole) (hst : s.Beside t) : t.Whole := by
  refine ⟨h.natives.same hst.types hst.objects, ?_⟩
  rw [hst.scopes, has_of_ids (congrArg _ hst.objects)]
  exact h.slots

theorem Whole.find (h : s.Whole) {name : String} {slot : Slot} (hf : s.scopes.find? name = some slot) :
    slot.value.Within s.Has := h.slots.find hf

theorem Whole.has (h : s.Whole) {id : Nat} (hid : id ∈ s.references) : s.Has id := by
  obtain ⟨scope, hscope, hid⟩ := List.mem_flatMap.mp hid
  obtain ⟨p, hp, hid⟩ := List.mem_flatMap.mp hid
  exact h.slots scope hscope p hp id hid

theorem Whole.scoped (h : s.Whole) {ss : Scopes Slot} (hs : ss.All fun slot => slot.value.Within s.Has) :
    State.Whole { s with scopes := ss } := ⟨h.natives.same rfl rfl, hs⟩

theorem has_build {n : NativeType} {contents : Instance} {disk : Disk} {id : Nat} (h : s.Has id) :
    (s.build n contents disk).Has id := by
  obtain ⟨o, ho, hid⟩ := h
  exact ⟨o, List.mem_append_left _ ho, hid⟩

theorem Whole.build (h : s.Whole) {n : NativeType} (hn : n.Relays) (contents : Instance) (disk : Disk) :
    (s.build n contents disk).Whole := by
  refine ⟨⟨h.natives.types, fun o ho => ?_⟩, fun scope hscope p hp => ?_⟩
  · rcases List.mem_append.mp ho with ho | ho
    · exact h.natives.objects o ho
    · exact List.mem_singleton.mp ho ▸ hn
  · exact (h.slots scope hscope p hp).mono fun _ => has_build

end State

namespace Heap

variable {s : State} {held vs : List Value} {id : Nat}

theorem has_swept (h : s.Has id) (hl : id ∈ s.references ∨ id ∈ Value.referencesAll held) : (swept held s).Has id := by
  unfold swept
  split
  · exact h
  · obtain ⟨o, ho, rfl⟩ := h
    refine ⟨o, ?_, rfl⟩
    rw [List.partition_eq_filter_filter]
    exact List.mem_filter.mpr ⟨ho, by simp [isLive, or_assoc, hl]⟩

theorem mem_references {name : String} {scope : Scope Slot} {slot : Slot} (hs : scope ∈ s.scopes)
    (hn : (name, slot) ∈ scope) (hid : id ∈ slot.value.references) : id ∈ s.references :=
  List.mem_flatMap.mpr ⟨scope, hs, List.mem_flatMap.mpr ⟨(name, slot), hn, hid⟩⟩

/-- What variables refer to stays. -/
theorem whole_swept (h : s.Whole) (held : List Value) : (swept held s).Whole := by
  refine ⟨h.natives.swept held, ?_⟩
  rw [scopes_swept]
  intro scope hscope p hp id hid
  exact has_swept (h.slots scope hscope p hp id hid) (.inl (mem_references hscope hp hid))

/-- What values in use refer to stays. -/
theorem provides_swept (h : s.Provides vs) (hv : ∀ v ∈ vs, v ∈ held) : (swept held s).Provides vs :=
  fun v hm id hid => has_swept (h v hm id hid) (.inr (Value.mem_referencesAll.mpr ⟨v, hv v hm, hid⟩))

end Heap

/-! ## One rule for each construct -/

namespace Run

variable {α β : Type} {held vs us : List Value} {line : Nat}

/-- With the objects of `vs` and `held` there, a computation keeps the state whole and the objects of `held`, and
the objects of `ws` are there with its result. -/
def Retains (held vs : List Value) (x : Run α) (ws : α → List Value) : Prop :=
  ∀ s : State, s.Whole → s.Provides (vs ++ held) →
    Ends x s (fun a t => t.Whole ∧ t.Provides (ws a ++ held)) fun _ t => t.Whole ∧ t.Provides held

variable {x : Run α} {ws : α → List Value}

theorem Retains.weaken {ws' : α → List Value} (h : Retains held vs x ws) (hv : ∀ v ∈ vs, v ∈ us)
    (hw : ∀ a, ∀ w ∈ ws' a, w ∈ ws a) : Retains held us x ws' := by
  intro s hs hp
  obtain ⟨hus, hheld⟩ := State.provides_append.mp hp
  refine (h s hs (State.provides_append.mpr ⟨hus.sub hv, hheld⟩)).mono (fun a t ht => ⟨ht.1, ?_⟩) fun _ _ ht => ht
  obtain ⟨hws, hheld⟩ := State.provides_append.mp ht.2
  exact State.provides_append.mpr ⟨hws.sub (hw a), hheld⟩

/-- Values may be counted among those around a computation. -/
theorem Retains.shift (h : Retains (vs ++ held) [] x ws) : Retains held vs x fun a => ws a ++ vs := by
  intro s hs hp
  refine (h s hs hp).mono (fun a t ht => ⟨ht.1, ?_⟩) fun _ _ ht => ⟨ht.1, (State.provides_append.mp ht.2).2⟩
  rw [List.append_assoc]
  exact ht.2

theorem Retains.bind {f : α → Run β} {ts : β → List Value} (hx : Retains held vs x ws)
    (hf : ∀ a, Retains held (ws a) (f a) ts) : Retains held vs (x >>= f) ts := by
  intro s hs hp
  exact ends_bind.mpr ((hx s hs hp).mono (fun a t ht => hf a t ht.1 ht.2) fun _ _ ht => ht)

theorem retains_throw {h : Halt Fault} : Retains held vs (throw h) ws :=
  fun _ hs hp => ⟨hs, (State.provides_append.mp hp).2⟩

theorem retains_fail {c : Fault.Cause} : Retains held vs (fail line c) ws := retains_throw

theorem retains_lift {r : Except Fault.Cause α}
    (h : ∀ K, (∀ v ∈ vs, v.Within K) → Gives r fun a => ∀ w ∈ ws a, w.Within K) : Retains held vs (lift line r) ws := by
  intro s hs hp
  obtain ⟨hvs, hheld⟩ := State.provides_append.mp hp
  refine ends_lift.mpr ⟨fun a ha => ⟨hs, ?_⟩, fun c _ => ⟨hs, hheld⟩⟩
  exact State.provides_append.mpr ⟨h s.Has hvs a ha, hheld⟩

theorem retains_value {r : Except Fault.Cause Value} (h : ∀ K, (∀ v ∈ vs, v.Within K) → Gives r (·.Within K)) :
    Retains held vs (lift line r) fun v => [v] :=
  retains_lift fun K hK v hv => List.forall_mem_singleton.mpr (h K hK v hv)

theorem retains_pure {a : α} (h : ∀ K, (∀ v ∈ vs, v.Within K) → ∀ w ∈ ws a, w.Within K) :
    Retains held vs (pure a) ws := by
  have hlift : Retains held vs (lift 0 (.ok a)) ws := retains_lift fun K hK => gives_ok (h K hK)
  exact hlift

theorem retains_done {a : α} (h : ∀ w ∈ ws a, w ∈ vs) : Retains held vs (pure a) ws :=
  retains_pure fun _ hK w hw => hK w (h w hw)

theorem Quiet.retains (h : Quiet x) : Retains held vs x fun _ => vs := by
  intro s hs hp
  have hkeep : ∀ {us : List Value} {t : State}, s.Beside t → s.Provides us → t.Provides us := fun hst hus =>
    hus.grow fun _ => by rw [State.has_of_ids (congrArg _ hst.objects)]; exact id
  refine (quiet_iff.mp h s).mono (fun _ t ht => ⟨hs.beside ht, hkeep ht hp⟩) fun _ t ht => ⟨hs.beside ht, ?_⟩
  exact hkeep ht (State.provides_append.mp hp).2

/-- A result without references. -/
theorem Quiet.retains_bare {x : Run Value} (h : Quiet x)
    (hr : ∀ s, Ends x s (fun v _ => v.references = []) fun _ _ => True) : Retains held vs x fun v => [v] := by
  intro s hs hp
  have hkeep := h.retains s hs hp
  have hbare := hr s
  unfold Ends at hkeep hbare ⊢
  cases hx : x s with
  | ok v t =>
    rw [hx] at hkeep hbare
    exact ⟨hkeep.1, List.forall_mem_cons.mpr ⟨Value.within_bare hbare, (State.provides_append.mp hkeep.2).2⟩⟩
  | error e t =>
    rw [hx] at hkeep
    exact hkeep

/-- Many computations start with one that is quiet. -/
theorem Quiet.andKeep {f : α → Run β} {ts : β → List Value} (hx : Quiet x) (hf : ∀ a, Retains held vs (f a) ts) :
    Retains held vs (x >>= f) ts := hx.retains.bind hf

theorem retains_get {f : State → Run α} (hf : ∀ s, s.Whole → Retains held vs (f s) ws) :
    Retains held vs (get >>= f) ws := fun s hs hp => hf s hs s hs hp

theorem Retains.map {f : α → β} {ts : β → List Value} (hx : Retains held vs x ws) (hf : ∀ a, ∀ w ∈ ts (f a), w ∈ ws a) :
    Retains held vs (f <$> x) ts := by
  rw [← bind_pure_comp]
  exact hx.bind fun a => retains_done (hf a)

theorem Retains.nested (hx : Retains held vs x ws) : Retains held vs (Run.nested x) ws := by
  intro s hs hp
  have hdrop : ∀ {t : State}, t.Whole → State.Whole { t with scopes := t.scopes.drop 1 } := fun ht =>
    ht.scoped ht.slots.drop
  refine ends_nested.mpr ((hx _ (hs.scoped (hs.slots.cons (by simp))) hp).mono (fun _ _ ht => ?_) fun _ _ ht => ?_)
  · exact ⟨hdrop ht.1, ht.2⟩
  · exact ⟨hdrop ht.1, ht.2⟩

theorem Retains.failure? {x : Run Unit} {ws : Unit → List Value} (hx : Retains held vs x ws) :
    Retains held vs (Run.failure? x) fun _ => [] := by
  intro s hs hp
  refine ends_failure?.mpr ((hx s hs hp).mono (fun _ t ht => ?_) fun e t ht => ?_)
  · exact ⟨ht.1, (State.provides_append.mp ht.2).2⟩
  · cases e with
    | error f =>
      simp only
      split
      · exact ht
      · exact ht
    | outOfFuel => exact ht

/-! ## Variables and operators -/

theorem retains_lookup {name : String} : Retains held vs (lookup line name) (· :: vs) := by
  intro s hs hp
  refine ends_lookup.mpr ⟨fun slot hf => ⟨hs, ?_⟩, fun _ => ⟨hs, (State.provides_append.mp hp).2⟩⟩
  exact List.forall_mem_cons.mpr ⟨hs.find hf, hp⟩

theorem retains_read {o : Operand} (h : ∀ v ∈ o.held, v ∈ vs) : Retains held vs (o.read line) (· :: vs) := by
  cases o with
  | named name => exact retains_lookup
  | temporary v => exact retains_done (List.forall_mem_cons.mpr ⟨h v (by simp [Operand.held]), fun _ h => h⟩)

theorem retains_define {name : String} {v : Value} (h : ∀ K, (∀ w ∈ vs, w.Within K) → v.Within K) :
    Retains held vs (define name v) fun _ => vs := by
  intro s hs hp
  have hv := h s.Has (State.provides_append.mp hp).1
  exact ends_define.mpr ⟨hs.scoped (hs.slots.define hv), hp⟩

theorem retains_store {name : String} {v : Value} (h : ∀ K, (∀ w ∈ vs, w.Within K) → v.Within K) :
    Retains held vs (store line name v) fun _ => vs := by
  intro s hs hp
  obtain ⟨hvs, hheld⟩ := State.provides_append.mp hp
  refine ends_store.mpr ⟨fun slot hf => ⟨fun slot' hs' => ⟨hs.scoped (hs.slots.update ?_), hp⟩, ?_⟩, ?_⟩
  · exact Slot.gives_store (h s.Has hvs) slot' hs'
  · exact fun _ _ => ⟨hs, hheld⟩
  · exact fun _ => ⟨hs, hheld⟩

theorem retains_mutate {name : String} {m : Member} {args : List Value} (h : ∀ a ∈ args, a ∈ vs) :
    Retains held vs (mutate line name m args) fun _ => vs := by
  intro s hs hp
  have hheld := (State.provides_append.mp hp).2
  have hargs : ∀ a ∈ args, a.Within s.Has := fun a ha => hp a (List.mem_append_left _ (h a ha))
  refine ends_mutate.mpr ⟨fun slot hf => ?_, fun _ => ⟨hs, hheld⟩⟩
  have hmutate := Value.within_mutate (m := m) (hs.find hf) hargs
  refine ⟨fun w hw => ⟨hs.scoped (hs.slots.update ?_), hp⟩, fun w c hw => ⟨hs.scoped (hs.slots.update ?_), hheld⟩⟩
  · rw [hw] at hmutate
    exact hmutate
  · rw [hw] at hmutate
    exact hmutate

theorem retains_counted {operands : List Operand} {v : Value} (h : v ∈ vs) :
    Retains held vs (counted operands v) fun v => [v] := by
  have hdone : Retains held vs (pure v) fun v => [v] := retains_done (List.forall_mem_singleton.mpr h)
  unfold counted
  split
  · exact quiet_allocate.andKeep fun _ => hdone
  · exact (quiet_pure (a := ())).andKeep fun _ => hdone

theorem retains_binary {op : BinaryOp} {l r : Value} : Retains held vs (binary line op l r) fun v => [v] := by
  intro s hs hp
  have hheld := (State.provides_append.mp hp).2
  have hst : s.Beside { s with patterns := (op.apply l r s.patterns).2 } :=
    ⟨rfl, rfl, rfl, rfl, rfl, rfl, BinaryOp.leads_apply⟩
  refine ends_bind.mpr (ends_get.mpr (ends_bind.mpr (ends_lift.mpr ⟨fun v hv => ?_, fun c _ => ?_⟩)))
  · exact ⟨hs.beside hst, List.forall_mem_cons.mpr ⟨BinaryOp.gives_apply v hv, hheld⟩⟩
  · exact ⟨hs.beside hst, hheld⟩

theorem retains_combine {op : BinaryOp} {l r : Operand} : Retains held (l.held ++ r.held) (combine line op l r) fun v => [v] := by
  have hread : Retains held (l.held ++ r.held) (r.read line) (· :: (l.held ++ r.held)) :=
    retains_read fun v hv => List.mem_append_right _ hv
  unfold combine
  split
  · exact hread.bind fun _ => retains_value fun _ _ => Operation.gives_concat
  · exact hread.bind fun _ => retains_value fun _ _ => Operation.gives_concat
  · refine (retains_read fun v hv => List.mem_append_left _ hv).bind fun a => ?_
    refine (retains_read fun v hv => List.mem_cons_of_mem _ (List.mem_append_right _ hv)).bind fun b => ?_
    exact retains_binary.bind fun v => retains_counted List.mem_cons_self

theorem retains_shortCircuit {op : BinaryOp} {l : Operand} {right : Run Operand} (h : Retains held [] right Operand.held) :
    Retains held l.held (shortCircuit line op l right) fun v => [v] := by
  have hbare : ∀ a, ∀ K : Nat → Prop, ∀ v ∈ [Operation.ofTruth a], v.Within K := fun a K =>
    List.forall_mem_singleton.mpr (Operation.within_ofTruth a)
  refine (retains_read fun _ hv => hv).bind fun v => quiet_lift.andKeep fun a => ?_
  cases Operation.decided op a with
  | some b => exact retains_pure fun K _ => hbare (some b) K
  | none =>
    refine (h.weaken (List.forall_mem_nil _) fun _ _ hw => hw).bind fun r => ?_
    refine quiet_read.andKeep fun _ => (retains_read fun _ hv => hv).bind fun w => quiet_lift.andKeep fun b => ?_
    have hresult : Retains held (w :: r.held) (pure ()) fun _ => [Operation.ofTruth (Operation.connective op a b)] :=
      retains_pure fun K _ => hbare _ K
    exact hresult.bind fun _ => retains_counted List.mem_cons_self

theorem retains_callMember {o : Operand} {m : Member} {args : List Value} :
    Retains held (args ++ o.held) (callMember line o m args) Operand.held := by
  unfold callMember
  split
  · cases o with
    | named name =>
      refine (retains_mutate fun a ha => List.mem_append_left _ ha).bind fun _ => ?_
      exact retains_done nofun
    | temporary v =>
      refine quiet_lift.andKeep fun _ => retains_pure fun K hK => List.forall_mem_singleton.mpr ?_
      obtain ⟨hargs, hv⟩ := List.forall_mem_append.mp hK
      exact Value.within_mutate (List.forall_mem_singleton.mp hv) hargs
  · refine (retains_read fun _ hv => List.mem_append_right _ hv).bind fun v => ?_
    refine (retains_value fun K hK => ?_).bind fun w => retains_done fun _ h => h
    exact Value.gives_access (hK v List.mem_cons_self)

end Run

/-! ## Objects -/

namespace Heap

variable {held vs : List Value} {line : Nat}

/-- A computation on the same objects, whose result refers to them. -/
def Stays (x : Run Value) (s : State) : Prop :=
  Ends x s (fun v t => t.Whole ∧ t.Has = s.Has ∧ v.Within s.Has) fun _ t => t.Whole ∧ t.Has = s.Has

theorem has_mapped {f : Object → Object} (hf : ∀ o, (f o).id = o.id) (s : State) :
    State.Has { s with objects := s.objects.map f } = s.Has :=
  State.has_of_ids (by rw [List.map_map]; exact List.map_congr_left fun o _ => hf o)

theorem whole_mapped {s : State} {f : Object → Object} (hf : ∀ o, (f o).id = o.id ∧ (f o).native = o.native)
    (h : s.Whole) : State.Whole { s with objects := s.objects.map f } := by
  refine ⟨h.natives.mapped fun o => (hf o).2, ?_⟩
  rw [has_mapped fun o => (hf o).1]
  exact h.slots

/-- A method, when the calls that it makes stay with the objects. -/
theorem stays_perform {s : State} {callee : Call} {id : Nat}
    (hc : ∀ t : State, t.Whole → t.Has = s.Has → ∀ object method args, (∀ a ∈ args, a.value.Within s.Has) →
      Stays (callee object method args) t)
    {a : Action} (ha : a.Relays s.Has) (t : State) (ht : t.Whole) (hst : t.Has = s.Has) :
    Ends (perform line callee id a) t (fun v u => u.Whole ∧ u.Has = s.Has ∧ v.Within s.Has) fun _ u =>
      u.Whole ∧ u.Has = s.Has := by
  induction a generalizing t with
  | done v => exact ⟨ht, hst, ha⟩
  | fail c => exact ⟨ht, hst⟩
  | keep i next ih =>
    have hf : ∀ o : Object, (if o.id = id then { o with contents := i } else o).id = o.id ∧
        (if o.id = id then { o with contents := i } else o).native = o.native := fun o => by split <;> exact ⟨rfl, rfl⟩
    exact ends_bind.mpr (ih ha _ (whole_mapped hf ht) ((has_mapped (fun o => (hf o).1) t).trans hst))
  | store into v next ih =>
    obtain ⟨hv, hnext⟩ := ha
    simp only [perform]
    cases into.origin with
    | none => exact ih _ (hnext _) t ht hst
    | some name =>
      rw [ends_bind, ends_outcome, ends_store]
      refine ⟨fun slot hf => ⟨fun slot' hs' => ?_, fun c _ => ?_⟩, fun _ => ?_⟩
      · have hslot : slot'.value.Within t.Has := hst ▸ Slot.gives_store hv slot' hs'
        exact ih _ (hnext _) _ (ht.scoped (ht.slots.update hslot)) hst
      · exact ih _ (hnext _) t ht hst
      · exact ih _ (hnext _) t ht hst
  | call object method args next ih =>
    obtain ⟨hargs, hnext⟩ := ha
    refine ends_bind.mpr (ends_outcome.mpr ((hc t ht hst object method args hargs).mono (fun v u hu => ?_) ?_))
    · obtain ⟨hu, htu, hv⟩ := hu
      exact ih _ (hnext _ (gives_ok (hst ▸ hv))) u hu (htu.trans hst)
    · intro e u hu
      obtain ⟨hu, htu⟩ := hu
      cases e with
      | error f => exact ih _ (hnext _ gives_error) u hu (htu.trans hst)
      | outOfFuel => exact ⟨hu, htu.trans hst⟩
  | look next ih => exact ih _ (ha t.disk) t ht hst
  | write d next ih => exact ih ha _ (ht.beside ⟨rfl, rfl, rfl, rfl, rfl, rfl, .refl⟩) hst

theorem stays_invokeTo {depth id method : Nat} {args : List Argument} (s : State) (hs : s.Whole)
    (hargs : ∀ a ∈ args, a.value.Within s.Has) : Stays (invokeTo line depth id method args) s := by
  induction depth generalizing s id method args with
  | zero => exact ⟨hs, rfl⟩
  | succ depth ih =>
    refine ends_bind.mpr (ends_get.mpr ?_)
    cases ho : find? s id with
    | none => exact ⟨hs, rfl⟩
    | some o =>
      simp only
      split
      · exact ⟨hs, rfl⟩
      · have hf : ∀ (b : Bool) (o : Object), (if o.id = id then { o with busy := b } else o).id = o.id ∧
            (if o.id = id then { o with busy := b } else o).native = o.native := fun b o => by
          split <;> exact ⟨rfl, rfl⟩
        have hwhole : ∀ (b : Bool) {t : State}, t.Whole → (marked id b t).Whole := fun b _ ht => whole_mapped (hf b) ht
        have hhas : ∀ (b : Bool) (t : State), (marked id b t).Has = t.Has := fun b t => has_mapped (fun o => (hf b o).1) t
        refine ends_whileBusy.mpr ((stays_perform (s := s) ?_ ?_ _ (hwhole true hs) (hhas true s)).mono ?_ ?_)
        · exact fun t ht hst _ _ args hargs => ih t ht (hst ▸ hargs)
        · exact hs.natives.find? ho s.Has _ _ _ hargs
        · exact fun v t ht => ⟨hwhole false ht.1, (hhas false t).trans ht.2.1, ht.2.2⟩
        · exact fun _ t ht => ⟨hwhole false ht.1, (hhas false t).trans ht.2⟩

theorem retains_invoke {id method : Nat} {args : List Argument} (h : ∀ a ∈ args, a.value ∈ vs) :
    Retains held vs (invoke line id method args) fun v => [v] := by
  refine retains_get fun _ _ s hs hp => ?_
  obtain ⟨hvs, hheld⟩ := State.provides_append.mp hp
  refine (stays_invokeTo s hs fun a ha => hvs _ (h a ha)).mono (fun v t ht => ⟨ht.1, ?_⟩) fun _ t ht => ⟨ht.1, ?_⟩
  · refine List.forall_mem_cons.mpr ?_
    rw [ht.2.1]
    exact ⟨ht.2.2, hheld⟩
  · exact hheld.grow fun _ h => ht.2 ▸ h

theorem retains_sweep {live : List Value} (h : ∀ v ∈ vs ++ held, v ∈ live) : Retains held vs (sweep live) fun _ => vs :=
  fun _ hs hp => ⟨whole_swept hs live, provides_swept hp h⟩

theorem retains_construct {t : NativeType} {number : Nat} {args : List Value} (ht : t.Relays) :
    Retains held vs (construct line t number args) fun v => [v] := by
  intro s hs hp
  have hheld := (State.provides_append.mp hp).2
  refine ends_bind.mpr (ends_get.mpr (ends_bind.mpr (ends_lift.mpr ⟨fun built _ => ?_, fun c _ => ⟨hs, hheld⟩⟩)))
  refine ⟨hs.build ht _ _, List.forall_mem_cons.mpr ⟨Value.within_object.mpr ?_, hheld.grow fun _ => State.has_build⟩⟩
  exact ⟨_, List.mem_append_right _ List.mem_cons_self, rfl⟩

end Heap

namespace Run

variable {held vs : List Value} {line : Nat}

theorem retains_callObject {native : String} {id : Nat} {name : String} {args : List Argument} :
    Retains held (args.map (·.value) ++ [.object native id]) (callObject line held native id name args) fun v => [v] := by
  refine retains_get fun s _ => ?_
  cases Heap.find? s id with
  | none => exact retains_fail
  | some o =>
    simp only
    cases o.native.interface.findMethod? name args.length with
    | none => exact retains_fail
    | some m =>
      refine (Heap.retains_sweep fun v hv => ?_).bind fun _ => ?_
      · simpa [or_comm, or_assoc, or_left_comm] using hv
      · exact Heap.retains_invoke fun a ha => List.mem_append_left _ (List.mem_map_of_mem ha)

theorem retains_construct {t : NativeType} {name : String} {args : List Value} (ht : t.Relays) :
    Retains held args (construct line held t name args) fun v => [v] := by
  unfold construct
  split
  · exact retains_fail
  · exact (Heap.retains_sweep fun v hv => hv).bind fun _ => Heap.retains_construct ht

end Run

namespace Builtin

variable {held vs : List Value} {line : Nat}

theorem retains_drawRandom {args : List Value} : Retains held vs (drawRandom line args) fun v => [v] := by
  refine quiet_drawRandom.retains_bare fun s => ?_
  cases args with
  | nil =>
    simp only [drawRandom, ends_bind, ends_get]
    generalize s.random.unit = draw
    exact rfl
  | cons bound rest =>
    refine ends_bind.mpr (ends_lift.mpr ⟨fun n _ => ?_, fun _ _ => trivial⟩)
    split
    · exact trivial
    · simp only [ends_bind, ends_get]
      generalize s.random.below _ = draw
      exact rfl

theorem retains_readInput {args : List Argument} : Retains held vs (readInput line args) fun v => [v] := by
  have hdone : ∀ b, Retains held vs (pure (.boolean b)) fun v => [v] := fun b =>
    retains_pure fun _ _ => List.forall_mem_singleton.mpr (Value.within_bare rfl)
  cases args with
  | nil => exact retains_fail
  | cons a rest =>
    refine quiet_readLine.andKeep fun text => ?_
    split
    · exact hdone false
    · split
      · exact retains_fail
      · exact (retains_store fun _ _ => Value.within_bare rfl).bind fun _ => hdone true

theorem retains_call {b : Builtin} {args : List Argument} :
    Retains held (args.map (·.value)) (b.call line args) fun v => [v] := by
  unfold call
  simp only
  split
  · exact retains_fail
  · split
    · exact retains_pure fun _ _ => List.forall_mem_singleton.mpr (Value.within_bare rfl)
    · unfold perform
      split
      · exact retains_drawRandom
      · exact retains_readInput
      · exact quiet_print.andKeep fun _ => retains_done (by simp)
      · exact retains_value fun K hK => Builtin.gives_compute hK

end Builtin
/-! ## Expressions -/

namespace Expr

mutual

theorem retains_operand (held : List Value) (e : Expr) : Retains held [] (e.operand held) Operand.held := by
  cases e with
  | constant line c =>
    rw [Expr.operand]
    exact retains_pure fun K _ => List.forall_mem_singleton.mpr (Value.within_ofConstant c)
  | var line name =>
    rw [Expr.operand]
    exact quiet_lookup.andKeep fun _ => retains_done nofun
  | unary line op e =>
    rw [Expr.operand]
    refine (retains_operand held e).bind fun o => (retains_read fun _ hv => hv).bind fun v => ?_
    refine (retains_value fun K hK => ?_).bind fun w => ?_
    · exact UnaryOp.gives_apply (hK v List.mem_cons_self)
    · exact (retains_counted List.mem_cons_self).bind fun _ => retains_done fun _ h => h
  | binary line op left right =>
    rw [Expr.operand]
    refine (retains_operand held left).bind fun l => ?_
    split
    · exact (retains_shortCircuit (retains_operand held right)).bind fun _ => retains_done fun _ h => h
    · refine (retains_operand (l.held ++ held) right).shift.bind fun r => ?_
      refine (retains_combine.weaken (fun v hv => ?_) fun _ _ h => h).bind fun _ => retains_done fun _ h => h
      exact List.mem_append.mpr (List.mem_append.mp hv).symm
  | call line name es =>
    rw [Expr.operand]
    refine retains_get fun s hs => ?_
    cases ht : s.imported? name with
    | some t =>
      refine (retains_arguments held es).bind fun args => ?_
      exact (retains_construct (hs.natives.imported? ht)).bind fun _ => retains_done fun _ h => h
    | none =>
      cases Builtin.ofName? name with
      | none => exact retains_fail
      | some b =>
        simp only
        split
        · exact (retains_arguments held es).bind fun args => Builtin.retains_call.bind fun _ => retains_done fun _ h => h
        · exact retains_fail
  | member line receiver m es =>
    rw [Expr.operand]
    refine (retains_operand held receiver).bind fun o => (retains_read fun _ hv => hv).bind fun v => ?_
    have hes : ∀ vs, Retains held vs (Expr.arguments (vs ++ held) es) fun args => args.map (·.value) ++ vs := fun vs =>
      (retains_arguments (vs ++ held) es).shift
    split
    · rename_i native id
      refine ((hes [.object native id]).weaken (fun v hv => ?_) fun _ _ h => h).bind fun args => ?_
      · exact List.mem_singleton.mp hv ▸ List.mem_cons_self
      · exact retains_callObject.bind fun _ => retains_done fun _ h => h
    · refine ((hes o.held).weaken (fun v hv => List.mem_cons_of_mem _ hv) fun _ _ h => h).bind fun args => ?_
      exact retains_callMember
  | index line target position =>
    rw [Expr.operand]
    refine (retains_operand held target).bind fun o => (retains_operand (o.held ++ held) position).shift.bind fun p => ?_
    refine (retains_read fun _ hv => List.mem_append_left _ hv).bind fun w => quiet_lift.andKeep fun i => ?_
    refine (retains_read fun _ hv => List.mem_cons_of_mem _ (List.mem_append_right _ hv)).bind fun v => ?_
    refine (retains_lift fun K hK => Collection.gives_ofValue? (hK v List.mem_cons_self)).bind fun c => ?_
    exact (retains_value fun K hK => Collection.gives_get hK).bind fun _ => retains_done fun _ h => h
  | field line target position =>
    rw [Expr.operand]
    refine (retains_operand held target).bind fun o => (retains_read fun _ hv => hv).bind fun v => ?_
    refine (retains_lift fun K hK => Row.gives_ofValue? (hK v List.mem_cons_self)).bind fun r => ?_
    exact (retains_value fun K hK => Row.gives_field hK).bind fun _ => retains_done fun _ h => h
  | collection line es =>
    rw [Expr.operand]
    refine (retains_arguments held es).bind fun args => ?_
    refine (retains_lift fun K hK => Collection.gives_ofValues hK).bind fun c => retains_pure fun K hK => ?_
    exact List.forall_mem_singleton.mpr (Value.within_collection.mpr hK)

theorem retains_arguments (held : List Value) (es : List Expr) :
    Retains held [] (Expr.arguments held es) fun args => args.map (·.value) := by
  cases es with
  | nil =>
    rw [Expr.arguments]
    exact retains_done nofun
  | cons e es =>
    rw [Expr.arguments]
    refine (retains_operand held e).bind fun o => (retains_read fun _ hv => hv).bind fun v => ?_
    have hes : Retains held [v] (Expr.arguments ([v] ++ held) es) fun args => args.map (·.value) ++ [v] :=
      (retains_arguments (v :: held) es).shift
    refine (hes.weaken (fun w hw => List.mem_singleton.mp hw ▸ List.mem_cons_self) fun _ _ h => h).bind fun args => ?_
    exact retains_done (by simp [or_comm])

end

theorem retains_eval (held : List Value) (e : Expr) : Retains held [] (e.eval held) fun v => [v] :=
  (retains_operand held e).bind fun _ =>
    (retains_read fun _ hv => hv).weaken (fun _ h => h) fun _ _ hw => List.mem_singleton.mp hw ▸ List.mem_cons_self

end Expr

/-! ## Statements -/

namespace Run

variable {held : List Value} {line : Nat}

theorem retains_repeatWhile {condition : Run Value} {body : Run Unit} (hc : Retains held [] condition fun v => [v])
    (hb : Retains held [] body fun _ => []) (passes : Nat) :
    Retains held [] (repeatWhile line condition body passes) fun _ => [] := by
  induction passes with
  | zero => exact retains_throw
  | succ passes ih =>
    refine quiet_checkStop.andKeep fun _ => hc.bind fun v => quiet_lift.andKeep fun b => ?_
    split
    · exact (hb.weaken (List.forall_mem_nil _) fun _ _ h => h).bind fun _ => ih
    · exact retains_done (List.forall_mem_nil _)

theorem retains_pass {name : String} {v : Value} {rest : List Value} {body : Run Unit}
    (hb : Retains (rest ++ held) [] body fun _ => []) :
    Retains held (v :: rest) (pass line name v body) fun _ => rest := by
  refine quiet_checkStop.andKeep fun _ => Retains.nested ?_
  refine (retains_define fun _ hK => hK v List.mem_cons_self).bind fun _ => ?_
  exact hb.nested.shift.weaken (fun _ hw => List.mem_cons_of_mem _ hw) fun _ _ h => h

theorem retains_eachInteger {name : String} {body : Run Unit} (hb : Retains held [] body fun _ => []) (n : Nat)
    (i : Int64) : Retains held [] (eachInteger line name body n i) fun _ => [] := by
  induction n generalizing i with
  | zero => exact retains_done (List.forall_mem_nil _)
  | succ n ih =>
    have hbare : Retains held [] (pure ()) fun _ => [Value.integer i] :=
      retains_pure fun _ _ => List.forall_mem_singleton.mpr (Value.within_bare rfl)
    exact (hbare.bind fun _ => retains_pass hb).bind fun _ => ih (i + 1)

theorem retains_eachValue {name : String} {body : List Value → Run Unit}
    (hb : ∀ rest, Retains (rest ++ held) [] (body rest) fun _ => []) (vs : List Value) :
    Retains held vs (eachValue line name body vs) fun _ => [] := by
  induction vs with
  | nil => exact retains_done (List.forall_mem_nil _)
  | cons v rest ih => exact (retains_pass (hb rest)).bind fun _ => ih

end Run

namespace Statement

mutual

theorem retains_exec (held : List Value) (passes : Nat) (st : Statement) :
    Retains held [] (st.exec held passes) Option.toList := by
  have hnone : ∀ {us}, Retains held us (pure none) Option.toList := retains_done nofun
  cases st with
  | expression line e =>
    rw [Statement.exec]
    exact (Expr.retains_eval held e).map fun _ _ h => h
  | declare line name e =>
    rw [Statement.exec]
    refine (Expr.retains_eval held e).bind fun v => ?_
    exact (retains_define fun _ hK => hK v List.mem_cons_self).bind fun _ => hnone
  | assign line name e =>
    rw [Statement.exec]
    refine (Expr.retains_eval held e).bind fun v => ?_
    exact (retains_store fun _ hK => hK v List.mem_cons_self).bind fun _ => hnone
  | compound line name op e =>
    rw [Statement.exec]
    refine (Expr.retains_operand held e).bind fun r => (retains_combine (l := .named name)).bind fun v => ?_
    exact (retains_store fun _ hK => hK v List.mem_cons_self).bind fun _ => hnone
  | choice line branches otherwise =>
    rw [Statement.exec]
    exact (retains_execBranches held passes line (retains_execOptional held passes otherwise) branches).bind fun _ => hnone
  | loop line condition body =>
    rw [Statement.exec]
    have hb := (retains_execAll held passes body).nested
    exact (retains_repeatWhile (Expr.retains_eval held condition) hb passes).bind fun _ => hnone
  | each line name source body =>
    have hb : ∀ held, Retains held [] (execAll held passes body) fun _ => [] := fun held =>
      retains_execAll held passes body
    cases source with
    | range start bound inclusive =>
      rw [Statement.exec]
      refine (Expr.retains_eval held start).bind fun v => quiet_lift.andKeep fun a => ?_
      refine ((Expr.retains_eval held bound).weaken nofun fun _ _ h => h).bind fun w => quiet_lift.andKeep fun b => ?_
      exact ((retains_eachInteger (hb held) _ _).weaken nofun fun _ _ h => h).bind fun _ => hnone
    | elements e =>
      rw [Statement.exec]
      refine (Expr.retains_eval held e).bind fun v => ?_
      refine (retains_lift fun K hK => Collection.gives_ofValue? (hK v List.mem_cons_self)).bind fun c => ?_
      exact (retains_eachValue (fun rest => hb (rest ++ held)) _).bind fun _ => hnone
  | raise line name =>
    rw [Statement.exec]
    exact retains_fail
  | attempt line body handlers =>
    rw [Statement.exec]
    refine (retains_execAll held passes body).nested.failure?.bind fun f? => ?_
    cases f? with
    | none => exact hnone
    | some f =>
      simp only
      split
      · exact retains_throw
      · rename_i handler hf
        obtain ⟨n, hn⟩ := mem_of_findHandler? hf
        have hdefine : Retains held [] (define errorVariable (.literal f.message)) fun _ => [] :=
          retains_define fun _ _ => Value.within_bare rfl
        have hbody := hdefine.bind fun _ => retains_execHandlers held passes handlers _ hn
        exact hbody.nested.bind fun _ => hnone
  | load line name =>
    rw [Statement.exec]
    exact quiet_importType.andKeep fun _ => hnone

theorem retains_execAll (held : List Value) (passes : Nat) (sts : List Statement) :
    Retains held [] (Statement.execAll held passes sts) fun _ => [] := by
  cases sts with
  | nil =>
    rw [Statement.execAll]
    exact retains_done nofun
  | cons st rest =>
    rw [Statement.execAll]
    refine (retains_exec held passes st).bind fun _ => ?_
    exact (retains_execAll held passes rest).weaken nofun fun _ _ h => h

theorem retains_execBranches (held : List Value) (passes line : Nat) {otherwise : Run Unit}
    (ho : Retains held [] otherwise fun _ => []) (branches : List (Expr × List Statement)) :
    Retains held [] (Statement.execBranches held passes line otherwise branches) fun _ => [] := by
  cases branches with
  | nil =>
    rw [Statement.execBranches]
    exact ho
  | cons branch rest =>
    obtain ⟨condition, body⟩ := branch
    rw [Statement.execBranches]
    refine (Expr.retains_eval held condition).bind fun v => quiet_lift.andKeep fun b => ?_
    split
    · exact (retains_execAll held passes body).nested.weaken nofun fun _ _ h => h
    · exact (retains_execBranches held passes line ho rest).weaken nofun fun _ _ h => h

theorem retains_execOptional (held : List Value) (passes : Nat) (body : Option (List Statement)) :
    Retains held [] (Statement.execOptional held passes body) fun _ => [] := by
  cases body with
  | none =>
    rw [Statement.execOptional]
    exact retains_done nofun
  | some body =>
    rw [Statement.execOptional]
    exact (retains_execAll held passes body).nested

theorem retains_execHandlers (held : List Value) (passes : Nat) (handlers : List (Handler Statement)) :
    ∀ p ∈ Statement.execHandlers held passes handlers, Retains held [] p.2 fun _ => [] := by
  cases handlers with
  | nil =>
    rw [Statement.execHandlers]
    nofun
  | cons handler rest =>
    obtain ⟨name, line, body⟩ := handler
    rw [Statement.execHandlers]
    exact List.forall_mem_cons.mpr ⟨retains_execAll held passes body, retains_execHandlers held passes rest⟩

end

end Statement

namespace Program

/-- The value of a script so far stays in use while the script goes on. -/
theorem retains_execFrom (held : List Value) (passes : Nat) (last : Option Value) (p : Program) :
    Retains held last.toList (p.execFrom held passes last) Option.toList := by
  induction p generalizing last with
  | nil => exact retains_done fun _ h => h
  | cons st rest ih =>
    refine (Statement.retains_exec (last.toList ++ held) passes st).shift.bind fun v => ?_
    refine (ih (v.or last)).weaken (fun w hw => ?_) fun _ _ h => h
    cases v with
    | none => exact hw
    | some v => exact List.mem_append_left _ hw

theorem retains_exec (passes : Nat) (p : Program) : Retains [] [] (p.exec passes) Option.toList :=
  retains_execFrom [] passes none p

end Program
end Crunch
