import Crunch.Proofs.Run
import Crunch.Proofs.Scope
import Crunch.Proofs.Slot
import Crunch.Proofs.Solid
import Crunch.Session

/-!
# Crunch.Proofs.Safe

Runs that fit what the check knows.

* `Env.Fits`: the variables of a state are those that the check knows of, and each holds a solid
  value of its type. Nothing is imported.
* `Halt.IsHarmless`: no error of types.
* `Run.Safe`: a computation that keeps a fitting state fitting, and whose errors are harmless.
* `Run.Leads`: the same for a block, which declares variables in the innermost scope.
-/

namespace Crunch

variable {α β : Type}

/-! ## States -/

/-- The variables of a state are those that the check knows of, and hold solid values. -/
structure Env.Fits (env : Env) (s : State) : Prop where
  types : s.scopes.map Slot.type = env.scopes
  values : s.scopes.All fun slot => slot.value.HasType slot.type
  known : env.imports = []
  imports : s.imports = []

/-- Whether every variable that the check knows of has a type with a kind. -/
def Env.IsTyped (env : Env) : Prop := env.scopes.All fun t => t.kind ≠ .noType

namespace Env.Fits

variable {env : Env} {s t : State} {name : String} {τ : Ty} {v : Value}

theorem find? (h : env.Fits s) (hn : env.scopes.find? name = some τ) :
    ∃ slot, s.scopes.find? name = some slot ∧ slot.type = τ ∧ slot.value.HasType τ := by
  rw [← h.types, Scopes.find?_map, Option.map_eq_some_iff] at hn
  obtain ⟨slot, hs, rfl⟩ := hn
  exact ⟨slot, hs, rfl, h.values.find hs⟩

theorem isTyped (h : env.Fits s) : env.IsTyped := by
  unfold IsTyped
  rw [← h.types]
  exact Scopes.All.map fun scope hs q hq => (h.values scope hs q hq).tySolid.kind_ne

/-- Only variables and imports count. -/
theorem congr (h : env.Fits s) (hs : t.scopes = s.scopes) (hi : t.imports = s.imports) : env.Fits t :=
  ⟨hs ▸ h.types, hs ▸ h.values, h.known, hi.trans h.imports⟩

theorem define (h : env.Fits s) (hv : v.HasType τ) :
    (env.define name τ).Fits { s with scopes := s.scopes.define name (Slot.ofValue v) } where
  types := by
    simp only [Scopes.map_define, h.types, Env.define, Slot.ofValue, hv.type]
  values := h.values.define hv.solid.hasType
  known := h.known
  imports := h.imports

theorem update {slot : Slot} (h : env.Fits s) (hs : s.scopes.find? name = some slot) (hv : v.HasType slot.type) :
    env.Fits { s with scopes := s.scopes.update name ⟨slot.type, v⟩ } where
  types := by
    have hf : (s.scopes.map Slot.type).find? name = some slot.type := by rw [Scopes.find?_map, hs, Option.map_some]
    simp only [Scopes.map_update]
    rw [Scopes.update_find? hf, h.types]
  values := h.values.update hv
  known := h.known
  imports := h.imports

theorem enter (h : env.Fits s) : env.enter.Fits { s with scopes := [] :: s.scopes } where
  types := congrArg ([] :: ·) h.types
  values := .cons (by simp) h.values
  known := h.known
  imports := h.imports

theorem leave (h : env.Fits s) : env.leave.Fits { s with scopes := s.scopes.drop 1 } where
  types := by
    simp only [Env.leave, ← h.types, Scopes.map, List.map_drop]
  values := h.values.drop
  known := h.known
  imports := h.imports

end Env.Fits

/-- No error of types. -/
def Halt.IsHarmless : Halt Fault → Prop
  | .error f => f.cause.isTypeError = false
  | .outOfFuel => True

namespace Run

/-! ## Computations within a scope -/

/-- From fitting states, a computation ends in fitting states, with a result that a predicate
describes or a harmless error. -/
def Safe (env : Env) (x : Run α) (P : α → Prop) : Prop :=
  ∀ s, env.Fits s → Ends x s (fun a t => env.Fits t ∧ P a) fun h t => env.Fits t ∧ h.IsHarmless

section Safe

variable {env env' : Env} {x : Run α} {P Q : α → Prop} {line : Nat} {name : String} {τ : Ty}

theorem Safe.of_ok {s t : State} {a : α} (hx : Safe env x P) (hs : env.Fits s) (h : x s = .ok a t) :
    env.Fits t ∧ P a := (ends_of_ok h).mp (hx s hs)

theorem safe_pure {a : α} (h : P a) : Safe env (pure a) P := fun _ hs => ⟨hs, h⟩

theorem safe_done {a : α} : Safe env (pure a) fun _ => True := safe_pure trivial

theorem safe_throw {h : Halt Fault} (hh : h.IsHarmless) : Safe env (throw h) P := fun _ hs => ⟨hs, hh⟩

theorem safe_fail {c : Fault.Cause} (h : c.isTypeError = false) : Safe env (fail line c) P := fun _ hs => ⟨hs, h⟩

theorem safe_bind {f : α → Run β} {R : β → Prop} (hx : Safe env x P) (hf : ∀ a, P a → Safe env (f a) R) :
    Safe env (x >>= f) R := by
  intro s hs
  refine ends_bind.mpr ((hx s hs).mono (fun a t ha => ?_) fun _ _ he => he)
  exact hf a ha.2 t ha.1

theorem safe_map {f : α → β} {R : β → Prop} (hx : Safe env x P) (hf : ∀ a, P a → R (f a)) : Safe env (f <$> x) R := by
  intro s hs
  exact ends_map.mpr ((hx s hs).mono (fun a _ ha => ⟨ha.1, hf a ha.2⟩) fun _ _ he => he)

theorem safe_lift {r : Except Fault.Cause α} (h : Lands r P) : Safe env (lift line r) P := by
  cases r with
  | ok a => exact safe_pure h
  | error c => exact safe_fail h

/-- The state that is got fits. -/
theorem safe_get {f : State → Run α} (h : ∀ s, env.Fits s → Safe env (f s) P) : Safe env (get >>= f) P :=
  fun s hs => h s hs s hs

theorem safe_set {s : State} (h : env.Fits s) : Safe env (set s) fun _ => True := fun _ _ => ⟨h, trivial⟩

theorem safe_modify {f : State → State} (h : ∀ s, env.Fits s → env.Fits (f s)) : Safe env (modify f) fun _ => True :=
  fun s hs => ⟨h s hs, trivial⟩

theorem safe_lookup (h : env.scopes.find? name = some τ) : Safe env (lookup line name) (·.HasType τ) := by
  intro s hs
  obtain ⟨slot, hf, -, hv⟩ := hs.find? h
  rw [ends_lookup, hf]
  refine ⟨fun slot' he => ?_, nofun⟩
  cases he
  exact ⟨hs, hv⟩

/-- A value that the type of a variable accepts can be stored. -/
theorem safe_store {v : Value} (h : env.scopes.find? name = some τ) (hv : v.Solid) (ha : τ.accepts v.type = true) :
    Safe env (store line name v) fun _ => True := by
  intro s hs
  obtain ⟨slot, hf, rfl, hslot⟩ := hs.find? h
  rw [ends_store, hf]
  refine ⟨fun slot' he => ?_, nofun⟩
  cases he
  have hc := hv.coerce hslot.tySolid ha
  refine ⟨fun slot' hstore => ⟨?_, trivial⟩, fun c hstore => ⟨hs, ?_⟩⟩
  · obtain ⟨w, hw, rfl⟩ := Slot.value_of_store hstore
    rw [hw] at hc
    have hslot' : slot.withValue w = ⟨slot.type, w⟩ := by
      rw [Slot.withValue, adopt_of_kind hslot.tySolid.kind_ne]
    rw [hslot']
    exact hs.update hf hc
  · cases hw : v.coerce slot.type with
    | ok w => simp [Slot.store, hw, Except.map] at hstore
    | error c' =>
      rw [hw] at hc
      simp only [Slot.store, hw, Except.map, Except.error.injEq] at hstore
      exact hstore ▸ hc

theorem safe_checkStop : Safe env (checkStop line) fun _ => True := by
  intro s hs
  exact ends_checkStop.mpr ⟨fun _ => ⟨hs, trivial⟩, fun _ => ⟨hs, rfl⟩⟩

theorem safe_print {text : String} : Safe env (print text) fun _ => True :=
  safe_modify fun _ hs => hs.congr rfl rfl

theorem safe_readLine : Safe env (readLine line) fun _ => True := by
  refine safe_bind safe_checkStop fun _ _ => safe_get fun s hs => ?_
  split
  · exact safe_pure trivial
  · refine safe_bind (safe_set (hs.congr rfl rfl)) fun _ _ => ?_
    split
    · exact safe_pure trivial
    · exact safe_fail rfl

theorem safe_counted {operands : List Operand} {v : Value} (h : v.HasType τ) :
    Safe env (counted operands v) (·.HasType τ) := by
  unfold counted
  split
  · exact safe_bind (safe_modify fun _ hs => hs.congr rfl rfl) fun _ _ => safe_pure h
  · exact safe_pure h

end Safe

/-! ## Blocks -/

/-- From states that fit before, a block ends in states that fit after it, or with a harmless error
and the outer scopes as they were. -/
def Leads (env : Env) (x : Run α) (env' : Env) : Prop :=
  ∀ s, env.Fits s → Ends x s (fun _ t => env'.Fits t)
    fun h t => (∃ inner : Env, inner.leave = env.leave ∧ inner.Fits t) ∧ h.IsHarmless

section Leads

variable {env env' env'' : Env} {x : Run α}

theorem Safe.leads (h : Safe env x fun _ => True) : Leads env x env := fun s hs =>
  (h s hs).mono (fun _ _ ha => ha.1) fun _ _ he => ⟨⟨env, rfl, he.1⟩, he.2⟩

/-- A safe computation before a block. -/
theorem Safe.leads_bind {P : α → Prop} {f : α → Run β} (hx : Safe env x P)
    (hf : ∀ a, P a → Leads env (f a) env') : Leads env (x >>= f) env' := by
  intro s hs
  refine ends_bind.mpr ((hx s hs).mono (fun a t ha => hf a ha.2 t ha.1) fun _ _ he => ?_)
  exact ⟨⟨env, rfl, he.1⟩, he.2⟩

/-- Blocks one after the other in one scope. -/
theorem Leads.bind {f : α → Run β} (hx : Leads env x env') (hl : env'.leave = env.leave)
    (hf : ∀ a, Leads env' (f a) env'') : Leads env (x >>= f) env'' := by
  intro s hs
  refine ends_bind.mpr ((hx s hs).mono (fun a t ha => ?_) fun _ _ he => he)
  exact (hf a t ha).mono (fun _ _ hb => hb) fun _ _ he => by rwa [hl] at he

theorem leads_define {name : String} {v : Value} {τ : Ty} (hv : v.HasType τ) :
    Leads env (define name v) (env.define name τ) := fun _ hs => ends_define.mpr (hs.define hv)

/-- A block in a scope of its own. -/
theorem safe_nested (hx : Leads env.enter x env') (hl : env'.leave = env) :
    Safe env (nested x) fun _ => True := by
  intro s hs
  refine ends_nested.mpr ((hx _ hs.enter).mono (fun _ t ht => ⟨?_, trivial⟩) fun h t ht => ?_)
  · have := ht.leave
    rwa [hl] at this
  · obtain ⟨⟨inner, hi, hf⟩, hh⟩ := ht
    have := hf.leave
    rw [hi] at this
    exact ⟨this, hh⟩

end Leads

end Run
end Crunch
