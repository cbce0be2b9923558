import Crunch.Pattern.Bundled
import Crunch.Proofs.Run
import Crunch.Proofs.Scope
import Crunch.Proofs.Slot
import Crunch.Session

/-!
# Crunch.Proofs.Adoption

How the check and the run give a type to a variable that has none yet.

* `Expr.isData`, `Statement.isData`: declarations and assignments of constants, variables and
  collections of them.
* `Ty.Foresees`: how the type that the check gives to such an expression relates to the type of its
  value. They are the same, or both are without a kind and the value is nested more deeply.
* `Session.Agree`: what the check knows of the variables is what the check of the next script starts
  from.
* `Statement.Strays`: the statements after which they differ.
* `Session.agree_exactly`: along a script, they agree up to the first statement that strays.
-/

namespace Crunch

mutual

/-- Constants, variables and collections of such. -/
def Expr.isData : Expr → Bool
  | .constant _ _ | .var _ _ => true
  | .collection _ es => Expr.areData es
  | _ => false

/-- Whether all of some expressions are constants, variables and collections of such. -/
def Expr.areData : List Expr → Bool
  | [] => true
  | e :: es => e.isData && Expr.areData es

end

/-- Declarations and plain assignments of such expressions. -/
def Statement.isData : Statement → Bool
  | .declare _ _ e | .assign _ _ e => e.isData
  | _ => false

namespace Ty

/-- What the check may take for the type of a value, and this type. -/
inductive Foresees : Ty → Ty → Prop where
  | same (k : Kind) (l : Nat) : Foresees (.plain k l) (.plain k l)
  | deeper {i j : Nat} : i < j → Foresees (.plain .noType i) (.plain .noType j)

theorem Foresees.arrayOf {t u : Ty} (h : t.Foresees u) : t.arrayOf.Foresees u.arrayOf := by
  cases h with
  | same k l => exact .same k (l + 1)
  | deeper hlt => exact .deeper (Nat.succ_lt_succ hlt)

/-- A type with a kind is foreseen. -/
theorem Foresees.eq {t u : Ty} (h : t.Foresees u) (hk : t.kind ≠ .noType ∨ u.kind ≠ .noType) : t = u := by
  cases h with
  | same k l => rfl
  | deeper hlt => exact absurd rfl (hk.elim id id)

theorem Foresees.eq_or_lt {t u : Ty} (h : t.Foresees u) : t = u ∨ t.level < u.level := by
  cases h with
  | same k l => exact .inl rfl
  | deeper hlt => exact .inr hlt

theorem Foresees.cases {t u : Ty} (h : t.Foresees u) :
    t = u ∨ ∃ i j, i < j ∧ t = .plain .noType i ∧ u = .plain .noType j := by
  cases h with
  | same k l => exact .inl rfl
  | deeper hlt => exact .inr ⟨_, _, hlt, rfl, rfl⟩

theorem Foresees.refl {t u : Ty} (h : t.Foresees u) : t.Foresees t ∧ u.Foresees u := by
  cases h with
  | same k l => exact ⟨.same k l, .same k l⟩
  | deeper _ => exact ⟨.same _ _, .same _ _⟩

/-- A type without a kind, by its level. -/
theorem Foresees.noType {t u : Ty} (h : t.Foresees u) (hk : u.kind = .noType) :
    t = .plain .noType t.level ∧ u = .plain .noType u.level := by
  cases h with
  | same k l =>
    cases hk
    exact ⟨rfl, rfl⟩
  | deeper _ => exact ⟨rfl, rfl⟩

theorem Foresees.exact {t u : Ty} (h : t.Foresees u) (hu : t.isUntyped = false) : t.isExact = true := by
  cases h with
  | same k l => simp [isExact, hu, isNumber, kind, level]; omega
  | deeper hlt => simp [isExact, hu, isNumber, kind, Kind.isNumber]

theorem unify?_noType_right {k : Kind} {l j : Nat} {c : Ty} (h : unify? (.plain k l) (.plain .noType j) = some c) :
    (k = .noType ∧ l = 0 ∧ c = .plain .noType j) ∨ (c = .plain k l ∧ (j = 0 ∨ l = j)) := by
  rcases unify?_cases h with ⟨ha, rfl⟩ | ⟨rfl, hb | hb⟩ | ⟨-, hb, -⟩ | ⟨hl, hk, rfl⟩ | ⟨hl, hk, rfl⟩
  · obtain ⟨hk, hl⟩ := isUntyped_iff.mp ha
    exact .inl ⟨hk, hl, rfl⟩
  · exact .inr ⟨rfl, .inl (isUntyped_iff.mp hb).2⟩
  · cases hb
    exact .inr ⟨rfl, .inr rfl⟩
  · simp [isNumber, kind, Kind.isNumber] at hb
  · cases hl
    cases hk
    exact .inr ⟨rfl, .inr rfl⟩
  · exact .inr ⟨rfl, .inr hl⟩

theorem unify?_noType_left {k : Kind} {l i : Nat} {c : Ty} (h : unify? (.plain .noType i) (.plain k l) = some c) :
    (k = .noType ∧ l = 0 ∧ c = .plain .noType i) ∨ (c = .plain k l ∧ (i = 0 ∨ i = l)) := by
  rcases unify?_cases h with ⟨ha, rfl⟩ | ⟨rfl, hb | hb⟩ | ⟨ha, -, -⟩ | ⟨hl, -, rfl⟩ | ⟨hl, hk, rfl⟩
  · exact .inr ⟨rfl, .inl (isUntyped_iff.mp ha).2⟩
  · obtain ⟨hk, hl⟩ := isUntyped_iff.mp hb
    exact .inl ⟨hk, hl, rfl⟩
  · cases hb
    exact .inr ⟨rfl, .inr rfl⟩
  · simp [isNumber, kind, Kind.isNumber] at ha
  · exact .inr ⟨rfl, .inr hl⟩
  · cases hl
    cases hk
    exact .inr ⟨rfl, .inr rfl⟩

theorem unify?_plain {k k' : Kind} {l l' : Nat} {c : Ty} (h : unify? (.plain k l) (.plain k' l') = some c) :
    ∃ k l, c = .plain k l := by
  rcases unify?_cases h with ⟨-, rfl⟩ | ⟨rfl, -⟩ | ⟨ha, hb, hp⟩ | ⟨-, -, rfl⟩ | ⟨-, -, rfl⟩
  · exact ⟨_, _, rfl⟩
  · exact ⟨_, _, rfl⟩
  · have ha' : (plain k l).isUntyped = false := by
      cases k <;> simp_all [isNumber, isUntyped, kind, Kind.isNumber]
    have hb' : (plain k' l').isUntyped = false := by
      cases k' <;> simp_all [isNumber, isUntyped, kind, Kind.isNumber]
    simp only [promote?, ha', hb', ha, hb, Bool.and_self, if_true] at hp
    cases hp
    exact ⟨_, _, rfl⟩
  · exact ⟨_, _, rfl⟩
  · exact ⟨_, _, rfl⟩

/-- The common type of elements is foreseen as their types are. -/
theorem Foresees.unify {h t u v c d : Ty} (hu : h.Foresees u) (tv : t.Foresees v) (hc : unify? h t = some c)
    (hd : unify? u v = some d) : c.Foresees d := by
  cases hu with
  | same k l =>
    cases tv with
    | same k' l' =>
      cases hc.symm.trans hd
      obtain ⟨k, l, rfl⟩ := unify?_plain hc
      exact .same k l
    | deeper hlt =>
      rcases unify?_noType_right hc with ⟨rfl, rfl, rfl⟩ | ⟨rfl, hi⟩
      · rcases unify?_noType_right hd with ⟨-, -, rfl⟩ | ⟨-, hj⟩
        · exact .deeper hlt
        · omega
      · rcases unify?_noType_right hd with ⟨rfl, rfl, rfl⟩ | ⟨rfl, -⟩
        · exact .deeper (by omega)
        · exact .same k l
  | deeper hlt =>
    cases tv with
    | same k l =>
      rcases unify?_noType_left hc with ⟨rfl, rfl, rfl⟩ | ⟨rfl, hi⟩
      · rcases unify?_noType_left hd with ⟨-, -, rfl⟩ | ⟨-, hj⟩
        · exact .deeper hlt
        · omega
      · rcases unify?_noType_left hd with ⟨rfl, rfl, rfl⟩ | ⟨rfl, -⟩
        · exact .deeper (by omega)
        · exact .same k l
    | deeper hlt' =>
      rcases unify?_noType_left hc with ⟨-, rfl, rfl⟩ | ⟨rfl, hi⟩
      · rcases unify?_noType_left hd with ⟨-, rfl, rfl⟩ | ⟨rfl, hj⟩
        · exact .deeper hlt
        · exact .deeper (by omega)
      · rcases unify?_noType_left hd with ⟨-, rfl, rfl⟩ | ⟨rfl, hj⟩
        · omega
        · exact .deeper hlt'

end Ty

/-! ## Expressions -/

namespace Session

/-- What the check knows of the variables is what the check of the next script starts from. -/
def Agree (e : Env) (s : State) : Prop := ∀ name, e.scopes.find? name = (env s).scopes.find? name

/-- A single scope on both sides. -/
structure Flat (e : Env) (s : State) (known : Scope Ty) (slots : Scope Slot) : Prop where
  env_scopes : e.scopes = [known]
  scopes : s.scopes = [slots]
  distinct : slots.Distinct

/-- The check knows the declared type of each variable, and it foresees the types of the values. -/
structure Tracks (e : Env) (s : State) (known : Scope Ty) (slots : Scope Slot) : Prop extends
    Flat e s known slots where
  types (name : String) : known.lookup name = (slots.lookup name).map (·.type)
  values {name : String} {slot : Slot} : slots.lookup name = some slot → slot.type.Foresees slot.value.type

variable {e : Env} {s : State} {known : Scope Ty} {slots : Scope Slot}

theorem Flat.find? (h : Flat e s known slots) (name : String) : s.scopes.find? name = slots.lookup name := by
  rw [h.scopes, Scopes.find?_cons]
  exact Option.or_none

theorem Flat.env_find? (h : Flat e s known slots) (name : String) : e.scopes.find? name = known.lookup name := by
  rw [h.env_scopes, Scopes.find?_cons]
  exact Option.or_none

theorem Flat.agree_iff (h : Flat e s known slots) :
    Agree e s ↔ ∀ name, known.lookup name = (slots.lookup name).map (·.type) := by
  have hs : ∀ name, (env s).scopes.find? name = (slots.lookup name).map (·.type) := by
    intro name
    have hv : s.scopes.visible = slots.foldl (fun seen q => Scope.put seen q.1 q.2) [] := by
      rw [h.scopes]
      rfl
    have hl := Scope.lookup_map (fun slot : Slot => slot.type) s.scopes.visible name
    have hd := Scope.lookup_putAll h.distinct [] name
    rw [← hv] at hd
    simp only [env, Scopes.find?_cons, State.declaredTypes]
    rw [hl, hd]
    simp [Scopes.find?]
  simp only [Agree, h.env_find?, hs]

theorem Tracks.agree (h : Tracks e s known slots) : Agree e s := h.toFlat.agree_iff.mpr h.types

/-- What is read from an evaluated operand. -/
def Reads (s : State) (o : Operand) (v : Value) : Prop := ∀ line, o.read line s = .ok v s

mutual

/-- The type of an expression foresees the type of its value, and evaluation changes nothing. -/
theorem operand_data (h : Tracks e s known slots) (held : List Value) {x : Expr} {t : Ty}
    (hx : x.isData = true) (ht : x.typeIn e = .ok t) :
    Run.Ends (x.operand held) s (fun o s' => s = s' ∧ ∃ v, Reads s o v ∧ t.Foresees v.type) fun _ _ => True := by
  cases x with
  | constant line c =>
    rw [Expr.typeIn] at ht
    rw [Expr.operand]
    cases ht
    refine ⟨rfl, Value.ofConstant c, fun _ => rfl, ?_⟩
    cases c <;> exact .same _ 0
  | var line name =>
    rw [Expr.typeIn, Env.lookup, h.toFlat.env_find?, h.types] at ht
    rw [Expr.operand]
    refine Run.ends_bind.mpr (Run.ends_lookup.mpr ⟨fun slot hs => ⟨rfl, slot.value, fun line => ?_, ?_⟩, fun _ => trivial⟩)
    · rw [Operand.read, Run.lookup, Run.bind_of_ok (x := get) (a := s) (t := s) rfl]
      simp only [hs]
      rfl
    · rw [h.toFlat.find?] at hs
      rw [hs] at ht
      cases ht
      exact h.values hs
  | collection line es =>
    rw [Expr.typeIn] at ht
    rw [Expr.operand]
    cases he : Expr.elementIn e line Ty.untyped es with
    | error r => rw [he] at ht; cases ht
    | ok u =>
      rw [he] at ht
      cases ht
      refine Run.ends_bind.mpr ((arguments_data h held (by simpa [Expr.isData] using hx) he).mono ?_ fun _ _ _ => trivial)
      rintro args s' ⟨rfl, hu⟩
      refine Run.ends_bind.mpr (Run.ends_lift.mpr ⟨fun c hc => ?_, fun _ _ => trivial⟩)
      obtain ⟨u', hu', rfl⟩ : ∃ u', Collection.unifyAll Ty.untyped (args.map (·.value)) = .ok u' ∧ c.element = u' := by
        simp only [Collection.ofValues] at hc
        split at hc
        · cases hc
        · rename_i u' hu'
          cases hall : Value.coerceAll (args.map (·.value)) u' with
          | error x => rw [hall] at hc; cases hc
          | ok ws =>
            rw [hall] at hc
            cases hc
            exact ⟨u', hu', rfl⟩
      exact ⟨rfl, c.value, fun _ => rfl, (hu _ _ (.same .noType 0) hu').arrayOf⟩
  | _ => simp [Expr.isData] at hx

/-- The common type of elements foresees the common type of their values. -/
theorem arguments_data (h : Tracks e s known slots) (held : List Value) {es : List Expr} {line : Nat} {t t' : Ty}
    (hx : Expr.areData es = true) (ht : Expr.elementIn e line t es = .ok t') :
    Run.Ends (Expr.arguments held es) s
      (fun args s' => s = s' ∧ ∀ u u', t.Foresees u →
        Collection.unifyAll u (args.map (·.value)) = .ok u' → t'.Foresees u') fun _ _ => True := by
  cases es with
  | nil =>
    rw [Expr.elementIn] at ht
    rw [Expr.arguments]
    cases ht
    refine ⟨rfl, fun u u' hu hu' => ?_⟩
    cases hu'
    exact hu
  | cons x es =>
    rw [Expr.elementIn] at ht
    rw [Expr.arguments]
    simp only [Expr.areData, Bool.and_eq_true] at hx
    cases hxt : x.typeIn e with
    | error r => rw [hxt] at ht; cases ht
    | ok tx =>
      rw [hxt] at ht
      simp only [bind, Except.bind, Check.element] at ht
      cases hun : Ty.unify? t tx with
      | none => rw [hun] at ht; cases ht
      | some tu =>
        rw [hun] at ht
        refine Run.ends_bind.mpr ((operand_data h held hx.1 hxt).mono ?_ fun _ _ _ => trivial)
        rintro o s' ⟨rfl, v, hv, hf⟩
        refine Run.ends_bind.mpr ((Run.ends_of_ok (hv x.line)).mpr ?_)
        refine Run.ends_bind.mpr ((arguments_data h (v :: held) hx.2 ht).mono ?_ fun _ _ _ => trivial)
        rintro args s' ⟨rfl, hrest⟩
        refine ⟨rfl, fun u u' hu hu' => ?_⟩
        simp only [List.map_cons, Collection.unifyAll] at hu'
        split at hu'
        · rename_i w hw
          exact hrest w u' (hu.unify hf hun hw) hu'
        · cases hu'

end

/-- The value of such an expression. -/
theorem eval_data (h : Tracks e s known slots) {held : List Value} {x : Expr} {t : Ty} {v : Value} {s' : State}
    (hx : x.isData = true) (ht : x.typeIn e = .ok t) (hv : x.eval held s = .ok v s') :
    s = s' ∧ t.Foresees v.type := by
  have key : Run.Ends (x.eval held) s (fun v s' => s = s' ∧ t.Foresees v.type) fun _ _ => True := by
    refine Run.ends_bind.mpr ((operand_data h held hx ht).mono ?_ fun _ _ _ => trivial)
    rintro o s' ⟨rfl, v, hv, hf⟩
    exact (Run.ends_of_ok (hv x.line)).mpr ⟨rfl, hf⟩
  exact (Run.ends_of_ok hv).mp key

/-! ## Statements -/

end Session

/-- The statements after which the check and the run know different types: a value with a kind is
assigned to a variable that was declared as a collection without one, or a variable is declared with
an untyped collection that is nested more deeply than the check foresees. -/
def Statement.Strays (e : Env) (s : State) : Statement → Prop
  | .declare _ _ x => ∃ t v s', x.typeIn e = .ok t ∧ x.eval [] s = .ok v s' ∧ t.level < v.type.level
  | .assign _ name x => ∃ slot v s', s.scopes.find? name = some slot ∧ x.eval [] s = .ok v s' ∧
      slot.type.kind = .noType ∧ 0 < slot.type.level ∧ v.type.kind ≠ .noType
  | _ => False

namespace Session

variable {e : Env} {s : State} {known : Scope Ty} {slots : Scope Slot}

/-- Declaring or changing one variable on both sides. -/
theorem Flat.put (h : Flat e s known slots) (name : String) (t : Ty) (slot : Slot) :
    Flat { e with scopes := [known.put name t] } { s with scopes := [slots.put name slot] }
      (known.put name t) (slots.put name slot) :=
  ⟨rfl, rfl, Scope.distinct_put h.distinct name slot⟩

theorem Tracks.put (h : Tracks e s known slots) (name : String) {slot : Slot}
    (hs : slot.type.Foresees slot.value.type) :
    Tracks { e with scopes := [known.put name slot.type] } { s with scopes := [slots.put name slot] }
      (known.put name slot.type) (slots.put name slot) where
  toFlat := h.toFlat.put name slot.type slot
  types other := by
    rw [Scope.lookup_put, Scope.lookup_put]
    split
    · rfl
    · exact h.types other
  values {other slot'} hl := by
    rw [Scope.lookup_put] at hl
    split at hl
    · cases hl
      exact hs
    · exact h.values hl

/-- The tables agree after such a change exactly if the types do. -/
theorem Tracks.agree_put (h : Tracks e s known slots) (name : String) (t : Ty) (slot : Slot) :
    Agree { e with scopes := [known.put name t] } { s with scopes := [slots.put name slot] } ↔ t = slot.type := by
  rw [(h.toFlat.put name t slot).agree_iff]
  constructor
  · intro hall
    have := hall name
    rw [Scope.lookup_put, Scope.lookup_put, if_pos rfl, if_pos rfl] at this
    exact Option.some.inj this
  · rintro rfl other
    rw [Scope.lookup_put, Scope.lookup_put]
    split
    · rfl
    · exact h.types other

theorem Flat.define (h : Flat e s known slots) (name : String) (t : Ty) :
    e.define name t = { e with scopes := [known.put name t] } := by
  simp [Env.define, h.env_scopes, Scopes.define]

theorem Flat.update {α : Type} {scope : Scope α} {name : String} {a : α} (h : scope.lookup name = some a) (b : α) :
    Scopes.update [scope] name b = [scope.put name b] := by
  simp [Scopes.update, Scope.has, h]

theorem Tracks.adopt (h : Tracks e s known slots) {name : String} {slot : Slot} (hs : slots.lookup name = some slot)
    (t : Ty) : e.adopt name t = { e with scopes := [known.put name (Crunch.adopt slot.type t)] } := by
  have hk : known.lookup name = some slot.type := by rw [h.types, hs]; rfl
  have hf : e.scopes.find? name = some slot.type := (h.toFlat.env_find? name).trans hk
  simp only [Env.adopt, hf]
  rw [h.env_scopes, Flat.update hk]

/-- After a declaration, the check and the run agree exactly if the types are the same. -/
theorem declare_data (h : Tracks e s known slots) {line passes : Nat} {name : String} {x : Expr} {e' : Env}
    {r : Option Value} {s' : State} (hx : x.isData = true)
    (hc : (Statement.declare line name x).check e = .ok e')
    (hr : (Statement.declare line name x).exec [] passes s = .ok r s') :
    r = none ∧ (Agree e' s' ↔ ¬(Statement.declare line name x).Strays e s) ∧
      (Agree e' s' → ∃ known' slots', Tracks e' s' known' slots') := by
  rw [Statement.check] at hc
  rw [Statement.exec] at hr
  obtain ⟨v, s₁, hv, hr⟩ := Run.ok_of_bind hr
  cases ht : x.typeIn e with
  | error c => rw [ht] at hc; cases hc
  | ok t =>
    rw [ht] at hc
    cases hc
    obtain ⟨rfl, hf⟩ := eval_data h hx ht hv
    cases hr
    simp only [h.toFlat.define, h.scopes, Scopes.define]
    have hagree := h.agree_put name t (Slot.ofValue v)
    refine ⟨trivial, ?_, fun ha => ?_⟩
    · rw [hagree]
      constructor
      · rintro rfl ⟨u, w, s', hu, hw, hlt⟩
        rw [ht] at hu
        rw [hv] at hw
        cases hu
        cases hw
        exact Nat.lt_irrefl _ hlt
      · intro hn
        rcases hf.eq_or_lt with he | hlt
        · exact he
        · exact absurd ⟨t, v, s, ht, hv, hlt⟩ hn
    · cases hagree.mp ha
      exact ⟨_, _, h.put name hf⟩

theorem slot_of_store (h : Flat e s known slots) {line : Nat} {name : String} {v : Value} {r : Unit} {s' : State}
    (hs : Run.store line name v s = .ok r s') :
    ∃ slot slot', slots.lookup name = some slot ∧ slot.store v = .ok slot' ∧
      s' = { s with scopes := [slots.put name slot'] } := by
  have key : Run.Ends (Run.store line name v) s (fun _ s' => ∃ slot slot', slots.lookup name = some slot ∧
      slot.store v = .ok slot' ∧ s' = { s with scopes := [slots.put name slot'] }) fun _ _ => True := by
    refine Run.ends_store.mpr ⟨fun slot hf => ⟨fun slot' hv => ?_, fun _ _ => trivial⟩, fun _ => trivial⟩
    rw [h.find?] at hf
    refine ⟨slot, slot', hf, hv, ?_⟩
    rw [h.scopes, Flat.update hf]
  exact (Run.ends_of_ok hs).mp key

/-- What an assignment makes of a variable, when it stores a value whose type is foreseen. -/
theorem assign_slot {slot slot' : Slot} {t : Ty} {v : Value} (hs : slot.type.Foresees slot.value.type)
    (ht : t.Foresees v.type) (ha : slot.type.accepts t = true) (hv : slot.store v = .ok slot') :
    (adopt slot.type t = slot'.type ↔ ¬(slot.type.kind = .noType ∧ 0 < slot.type.level ∧ v.type.kind ≠ .noType)) ∧
      slot'.type.Foresees slot'.value.type := by
  obtain ⟨w, hw, rfl⟩ := Slot.value_of_store hv
  by_cases hu : slot.type.isUntyped = true
  · -- the value is stored as it is, and both sides look at its type
    rw [Value.coerce_untyped v hu] at hw
    cases hw
    obtain ⟨hk, hl⟩ := Ty.isUntyped_iff.mp hu
    have hd : slot.type = Ty.untyped := by
      rw [(hs.refl.1.noType hk).1, hl]
    simp only [Slot.withValue, hd, adopt_untyped]
    rcases ht.cases with rfl | ⟨i, j, hlt, rfl, hj⟩
    · refine ⟨iff_of_true rfl (by simp [Ty.level]), ?_⟩
      split
      · rename_i hn
        rw [(ht.noType hn).1]
        rcases Nat.eq_zero_or_pos v.type.level with h0 | hpos
        · rw [h0]
          exact .same .noType 0
        · exact .deeper hpos
      · exact ht
    · rw [hj]
      exact ⟨iff_of_true rfl (by simp [Ty.level]), .deeper (Nat.zero_lt_of_lt hlt)⟩
  · -- the value has the type of the variable once it is stored, so the run adopts nothing
    have hu' : slot.type.isUntyped = false := by simpa using hu
    have hwt : w.type = slot.type := Value.type_of_coerce hw (hs.exact hu')
    simp only [Slot.withValue, hwt, adopt_self]
    refine ⟨?_, hs.refl.1⟩
    by_cases hk : slot.type.kind = .noType
    · have hl := Ty.level_pos_of_noType hu' hk
      by_cases hv : v.type.kind = .noType
      · have htk : t.kind = .noType := by
          rw [(ht.noType hv).1]
          rfl
        exact iff_of_true (by simp [adopt, htk]) (by simp [hv])
      · have he := ht.eq (.inr hv)
        subst he
        have hlevel := Ty.accepts_level ha hu' (by simp [Ty.isUntyped, hv])
        refine iff_of_false (fun he => ?_) (by simp [hk, hl, hv])
        rw [adopt, if_pos ⟨hk, hv, .inr hlevel⟩] at he
        exact hv (he ▸ hk)
    · exact iff_of_true (adopt_of_kind hk t) (by simp [hk])

theorem assign_data (h : Tracks e s known slots) {line passes : Nat} {name : String} {x : Expr} {e' : Env}
    {r : Option Value} {s' : State} (hx : x.isData = true)
    (hc : (Statement.assign line name x).check e = .ok e')
    (hr : (Statement.assign line name x).exec [] passes s = .ok r s') :
    r = none ∧ (Agree e' s' ↔ ¬(Statement.assign line name x).Strays e s) ∧
      (Agree e' s' → ∃ known' slots', Tracks e' s' known' slots') := by
  rw [Statement.check] at hc
  rw [Statement.exec] at hr
  obtain ⟨v, s₁, hv, hr⟩ := Run.ok_of_bind hr
  obtain ⟨_, s₂, hst, hr⟩ := Run.ok_of_bind hr
  cases hr
  cases ht : x.typeIn e with
  | error c => rw [ht] at hc; cases hc
  | ok t =>
    rw [ht] at hc
    obtain ⟨rfl, hf⟩ := eval_data h hx ht hv
    obtain ⟨slot, slot', hl, hs', rfl⟩ := slot_of_store h.toFlat hst
    have hk : e.scopes.find? name = some slot.type := by
      rw [h.toFlat.env_find?, h.types, hl]
      rfl
    simp only [bind, Except.bind, Env.assign, Env.lookup, hk] at hc
    split at hc
    · rename_i ha
      cases hc
      rw [h.adopt hl]
      obtain ⟨hiff, hfor⟩ := assign_slot (h.values hl) hf ha hs'
      have hagree := h.agree_put name (adopt slot.type t) slot'
      refine ⟨rfl, ?_, fun hag => ?_⟩
      · rw [hagree, hiff]
        refine not_congr ⟨fun hn => ⟨slot, v, s, ?_, hv, hn⟩, ?_⟩
        · rw [h.toFlat.find?, hl]
        · rintro ⟨slot₁, v₁, s₁, hl₁, hv₁, hn⟩
          rw [h.toFlat.find?, hl] at hl₁
          rw [hv] at hv₁
          cases hl₁
          cases hv₁
          exact hn
      · rw [hagree.mp hag]
        exact ⟨_, _, h.put name hfor⟩
    · cases hc

/-- After one statement, the check and the run agree exactly if it does not stray. -/
theorem exec_data (h : Tracks e s known slots) {st : Statement} {passes : Nat} {e' : Env} {r : Option Value}
    {s' : State} (hd : st.isData = true) (hc : st.check e = .ok e') (hr : st.exec [] passes s = .ok r s') :
    r = none ∧ (Agree e' s' ↔ ¬st.Strays e s) ∧ (Agree e' s' → ∃ known' slots', Tracks e' s' known' slots') := by
  cases st with
  | declare line name x => exact declare_data h hd hc hr
  | assign line name x => exact assign_data h hd hc hr
  | _ => cases hd

/-! ## Scripts -/

/-- What the check knows after the first statements of a script, and the state in which the run is. -/
def Reaches (e : Env) (passes : Nat) (s : State) (p : Program) (k : Nat) (e' : Env) (s' : State) : Prop :=
  Program.check e (p.take k) = .ok e' ∧ ∃ v, Program.exec passes (p.take k) s = .ok v s'

/-- The check and the run agree after each statement of a script, and before the first one. -/
def AgreeAlong (e : Env) (passes : Nat) (s : State) (p : Program) : Prop :=
  ∀ k e' s', Reaches e passes s p k e' s' → Agree e' s'

/-- No statement of a script strays where it is carried out. -/
def NoneStrays (e : Env) (passes : Nat) (s : State) (p : Program) : Prop :=
  ∀ k st e' s', p[k]? = some st → Reaches e passes s p k e' s' → ¬st.Strays e' s'

theorem reaches_zero {e e' : Env} {passes : Nat} {s s' : State} {p : Program} :
    Reaches e passes s p 0 e' s' ↔ e' = e ∧ s' = s := by
  constructor
  · rintro ⟨hc, v, hx⟩
    cases hc
    cases hx
    exact ⟨rfl, rfl⟩
  · rintro ⟨rfl, rfl⟩
    exact ⟨rfl, none, rfl⟩

theorem check_cons {e e₁ : Env} {st : Statement} (h : st.check e = .ok e₁) (p : Program) :
    Program.check e (st :: p) = Program.check e₁ p := by
  rw [Program.check, Statement.checkAll, h]
  rfl

theorem exec_cons {passes : Nat} {s s₁ : State} {st : Statement} (h : st.exec [] passes s = .ok none s₁)
    (p : Program) : Program.exec passes (st :: p) s = Program.exec passes p s₁ := by
  rw [Program.exec, Program.execFrom]
  exact Run.bind_of_ok h

theorem reaches_succ {e e₁ : Env} {passes : Nat} {s s₁ : State} {st : Statement} (hc : st.check e = .ok e₁)
    (hx : st.exec [] passes s = .ok none s₁) {p : Program} {k : Nat} {e' : Env} {s' : State} :
    Reaches e passes s (st :: p) (k + 1) e' s' ↔ Reaches e₁ passes s₁ p k e' s' := by
  simp only [Reaches, List.take_succ_cons, check_cons hc, exec_cons hx]

/-- From where they agree, the check and the run agree along a script exactly if no statement
strays. -/
theorem agree_along {p : Program} {passes : Nat} (hp : p.all Statement.isData = true) :
    ∀ {e e' : Env} {s s' : State} {known : Scope Ty} {slots : Scope Slot} {v : Option Value},
      Tracks e s known slots → Program.check e p = .ok e' → Program.exec passes p s = .ok v s' →
        (AgreeAlong e passes s p ↔ NoneStrays e passes s p) := by
  induction p with
  | nil =>
    intro e e' s s' known slots v h hc hx
    refine iff_of_true (fun k e₁ s₁ hr => ?_) (fun k st e₁ s₁ hk => by simp at hk)
    rw [Reaches, List.take_nil] at hr
    obtain ⟨hc', v', hx'⟩ := hr
    cases hc'
    cases hx'
    exact h.agree
  | cons st rest ih =>
    intro e e' s s' known slots v h hc hx
    rw [List.all_cons, Bool.and_eq_true] at hp
    -- the first statement is accepted and carried out
    cases hst : st.check e with
    | error r =>
      rw [Program.check, Statement.checkAll, hst] at hc
      cases hc
    | ok e₁ =>
      rw [Program.exec, Program.execFrom] at hx
      obtain ⟨r, s₁, hx₁, hx⟩ := Run.ok_of_bind hx
      obtain ⟨rfl, hagree, hnext⟩ := exec_data h hp.1 hst hx₁
      rw [check_cons hst] at hc
      have hone : Reaches e passes s (st :: rest) 1 e₁ s₁ :=
        (reaches_succ hst hx₁).mpr (reaches_zero.mpr ⟨rfl, rfl⟩)
      constructor
      · intro hall k st' e₂ s₂ hk hr
        have ha := hall 1 e₁ s₁ hone
        cases k with
        | zero =>
          obtain ⟨rfl, rfl⟩ := reaches_zero.mp hr
          cases hk
          exact hagree.mp ha
        | succ k =>
          obtain ⟨known', slots', ht⟩ := hnext ha
          refine (ih hp.2 ht hc hx).mp (fun k e₂ s₂ hr => ?_) k st' e₂ s₂ hk ((reaches_succ hst hx₁).mp hr)
          exact hall (k + 1) e₂ s₂ ((reaches_succ hst hx₁).mpr hr)
      · intro hnone k e₂ s₂ hr
        have ha := hagree.mpr (hnone 0 st e s rfl (reaches_zero.mpr ⟨rfl, rfl⟩))
        cases k with
        | zero =>
          obtain ⟨rfl, rfl⟩ := reaches_zero.mp hr
          exact h.agree
        | succ k =>
          obtain ⟨known', slots', ht⟩ := hnext ha
          refine (ih hp.2 ht hc hx).mpr (fun k st' e₂ s₂ hk hr => ?_) k e₂ s₂ ((reaches_succ hst hx₁).mp hr)
          exact hnone (k + 1) st' e₂ s₂ hk ((reaches_succ hst hx₁).mpr hr)

/-- A variable declared with the empty collection takes the type of the integers that are assigned to
it in the check, but not in the run. -/
theorem empty_collection_strays :
    ∃ e' v s', Program.check (env (State.fresh .bundled ⟨[], 0, []⟩ [] ⟨[], []⟩))
        [.declare 1 "a" (.collection 1 []), .assign 2 "a" (.collection 2 [.constant 2 (.integer 1)])] = .ok e' ∧
      Program.exec 0 [.declare 1 "a" (.collection 1 []), .assign 2 "a" (.collection 2 [.constant 2 (.integer 1)])]
        (State.fresh .bundled ⟨[], 0, []⟩ [] ⟨[], []⟩) = .ok v s' ∧ ¬Agree e' s' := by
  refine ⟨_, _, _, rfl, rfl, fun h => ?_⟩
  have ha : some (Ty.plain .integer 1) = some (Ty.plain .noType 1) := h "a"
  cases ha

/-- For a script that is accepted and runs to its end, the check and the run agree all along exactly
if no statement strays. Then they agree at the end. -/
theorem agree_exactly (engine : Pattern.Engine) (random : Random) (input : List UInt8) (disk : Disk)
    {p : Program} {passes : Nat} {e' : Env} {v : Option Value} {s' : State} (hp : p.all Statement.isData = true)
    (hc : Program.check (env (State.fresh engine random input disk)) p = .ok e')
    (hx : Program.exec passes p (State.fresh engine random input disk) = .ok v s') :
    (AgreeAlong (env (State.fresh engine random input disk)) passes (State.fresh engine random input disk) p ↔
        NoneStrays (env (State.fresh engine random input disk)) passes (State.fresh engine random input disk) p) ∧
      (NoneStrays (env (State.fresh engine random input disk)) passes (State.fresh engine random input disk) p →
        Agree e' s') := by
  have hstart : Tracks (env (State.fresh engine random input disk)) (State.fresh engine random input disk) [] [] :=
    ⟨⟨rfl, rfl, List.nodup_nil⟩, fun _ => rfl, nofun⟩
  have hiff := agree_along hp hstart hc hx
  refine ⟨hiff, fun hnone => hiff.mpr hnone p.length e' s' ?_⟩
  rw [Reaches, List.take_length]
  exact ⟨hc, v, hx⟩

/-- An untyped variable takes the type of the first collection of integers on both sides. -/
theorem agree_exactly_adopts :
    let p : Program := [.declare 1 "a" (.constant 1 .null), .assign 2 "a" (.collection 2 [.constant 2 (.integer 1)])]
    let s := State.fresh .bundled ⟨[], 0, []⟩ [] ⟨[], []⟩
    ∃ e' v s', p.all Statement.isData = true ∧ Program.check (env s) p = .ok e' ∧
      Program.exec 0 p s = .ok v s' ∧ (AgreeAlong (env s) 0 s p ↔ NoneStrays (env s) 0 s p) ∧
        (NoneStrays (env s) 0 s p → Agree e' s') := by
  intro p s
  exact ⟨_, _, _, rfl, rfl, rfl, agree_exactly .bundled ⟨[], 0, []⟩ [] ⟨[], []⟩ rfl rfl rfl⟩

end Session
end Crunch
