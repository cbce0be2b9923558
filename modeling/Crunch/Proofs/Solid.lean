import Crunch.Collection
import Crunch.Proofs.Outcome
import Crunch.Row

/-!
# Crunch.Proofs.Solid

Values whose type tells all about them.

* `Ty.Solid`: types with a kind throughout, and without native types.
* `Value.Solid`: values without nulls and objects at any depth, whose elements and fields have
  exactly the types declared for them. `Value.HasType`: such a value, by its type.
* `Fault.Cause.isTypeError`: the errors that a check of types is there to rule out.
* `Lands`: a computation gives a result that is described by a predicate, or another error.
* `Value.Solid.coerce`: a value that a slot accepts is converted to the type of the slot.
-/

namespace Crunch

/-- Types with a kind throughout, and without native types. -/
inductive Ty.Solid : Ty → Prop where
  | plain {k : Kind} {l : Nat} : k ≠ .noType → k ≠ .object → k ≠ .tuple → Solid (.plain k l)
  | row {l : Nat} {fields : List Ty} : (∀ t ∈ fields, Solid t) → Solid (.row .tuple l fields)

/-- Values without nulls and objects, whose elements and fields have exactly the types declared. -/
inductive Value.Solid : Value → Prop where
  | boolean (b : Bool) : Solid (.boolean b)
  | integer (n : Int64) : Solid (.integer n)
  | numeric (x : Float) : Solid (.numeric x)
  | imaginary (z : Imaginary) : Solid (.imaginary z)
  | literal (s : String) : Solid (.literal s)
  | tabchar (bytes : List UInt8) : Solid (.tabchar bytes)
  | tuple {fields : List Value} {declared : List Ty} :
      fields.map Value.type = declared → (∀ v ∈ fields, Solid v) → Solid (.tuple fields declared)
  | collection {e : Ty} {items : List Value} :
      e.Solid → (∀ v ∈ items, v.type = e) → (∀ v ∈ items, Solid v) → Solid (.collection e items)

/-- A solid value of a type. -/
structure Value.HasType (v : Value) (t : Ty) : Prop where
  solid : v.Solid
  type : v.type = t

/-- The errors that a check of types is there to rule out. -/
def Fault.Cause.isTypeError : Fault.Cause → Bool
  | .mismatch _ | .undefined _ | .noMethod _ _ _ | .nullValue | .unknownVariable _ | .unknownFunction _
  | .unknownType _ | .argumentCount _ | .native _ _ => true
  | _ => false

/-- A result that a predicate describes, or an error that is no error of types. -/
def Lands {α : Type} (r : Except Fault.Cause α) (P : α → Prop) : Prop :=
  match r with
  | .ok a => P a
  | .error c => c.isTypeError = false

section Lands

variable {α β : Type} {r : Except Fault.Cause α} {P Q : α → Prop}

@[simp] theorem lands_ok {a : α} : Lands (.ok a) P ↔ P a := Iff.rfl

@[simp] theorem lands_pure {a : α} : Lands (pure a) P ↔ P a := Iff.rfl

@[simp] theorem lands_error {c : Fault.Cause} : Lands (.error c : Except Fault.Cause α) P ↔ c.isTypeError = false :=
  Iff.rfl

theorem Lands.mono (h : Lands r P) (hpq : ∀ a, P a → Q a) : Lands r Q := Yields.mono h hpq fun _ => id

theorem Lands.bind {f : α → Except Fault.Cause β} {Q : β → Prop} (h : Lands r P) (hf : ∀ a, P a → Lands (f a) Q) :
    Lands (r >>= f) Q := Yields.bind h hf

theorem Lands.map {f : α → β} {Q : β → Prop} (h : Lands r P) (hf : ∀ a, P a → Q (f a)) : Lands (r.map f) Q :=
  Yields.map h hf

theorem lands_ite {p : Prop} [Decidable p] {r' : Except Fault.Cause α} (h : p → Lands r P) (h' : ¬p → Lands r' P) :
    Lands (if p then r else r') P := yields_ite h h'

end Lands

/-! ## Types -/

namespace Ty.Solid

variable {t u : Ty}

theorem kind_ne (h : t.Solid) : t.kind ≠ .noType := by
  cases h with
  | plain hk _ _ => exact hk
  | row _ => exact nofun

theorem isUntyped (h : t.Solid) : t.isUntyped = false := by
  simp [Ty.isUntyped, h.kind_ne]

theorem isExact (h : t.Solid) : t.isExact = true := by
  cases h with
  | plain hk _ _ => simp [Ty.isExact, Ty.isUntyped, Ty.isNumber, Ty.kind, hk, Ty.level]; omega
  | row _ => simp [Ty.isExact, Ty.isUntyped, Ty.isNumber, Ty.kind, Kind.isNumber]

theorem arrayOf (h : t.Solid) : t.arrayOf.Solid := by
  cases h with
  | plain h₁ h₂ h₃ => exact .plain h₁ h₂ h₃
  | row h => exact .row h

theorem of_arrayOf (h : t.arrayOf.Solid) : t.Solid := by
  cases t with
  | plain k l => cases h with | plain h₁ h₂ h₃ => exact .plain h₁ h₂ h₃
  | row k l fields => cases h with | row h => exact .row h
  | named k l name => nomatch h

theorem element (h : t.Solid) {e : Ty} (he : t.element? = some e) : e.Solid := by
  rw [eq_arrayOf_of_element? he] at h
  exact h.of_arrayOf

theorem objectName? (h : t.Solid) : t.objectName? = none := by
  cases h <;> rfl

/-- Fields belong to tuples only. -/
theorem fields? (h : t.Solid) {fields : List Ty} (hf : t.fields? = some fields) :
    t = Ty.tuple fields ∧ ∀ f ∈ fields, f.Solid := by
  cases h with
  | plain _ _ _ => cases hf
  | @row l fields' h =>
    cases l with
    | zero =>
      cases hf
      exact ⟨rfl, h⟩
    | succ l => cases hf

/-- A scalar is nothing but its kind. -/
theorem eq_scalar (h : t.Solid) {k : Kind} (hk : t.isScalar k = true) (hne : k ≠ .tuple) : t = scalar k := by
  obtain ⟨hl, rfl⟩ := isScalar_iff.mp hk
  cases h with
  | plain _ _ _ =>
    cases hl
    rfl
  | row _ => exact absurd rfl hne

/-- The types of numbers. -/
theorem number (h : t.Solid) (hn : t.isNumber = true) : t = Ty.integer ∨ t = Ty.numeric ∨ t = Ty.imaginary := by
  obtain ⟨hl, hk⟩ := isNumber_iff.mp hn
  have he : t = scalar t.kind := h.eq_scalar (isScalar_iff.mpr ⟨hl, rfl⟩) fun hr => by simp [hr, Kind.isNumber] at hk
  rw [he]
  cases hkind : t.kind with
  | integer => exact .inl rfl
  | numeric => exact .inr (.inl rfl)
  | imaginary => exact .inr (.inr rfl)
  | _ =>
    rw [hkind] at hk
    cases hk

/-- Acceptance goes from collections to their elements. -/
theorem accepts_arrayOf (ht : t.Solid) (hu : u.Solid) : t.arrayOf.accepts u.arrayOf = t.accepts u := by
  have hb : (t.arrayOf == u.arrayOf) = (t == u) := by
    rw [Bool.eq_iff_iff]
    simp
  simp only [accepts, ht.isUntyped, hu.isUntyped, isUntyped_arrayOf, level_arrayOf, kind_arrayOf, hb, ne_eq,
    Nat.add_right_cancel_iff, Bool.or_self, Bool.false_eq_true, if_false]

theorem accepts_iff (ht : t.Solid) (hu : u.Solid) :
    t.accepts u = true ↔ t.level = u.level ∧
      (t = u ∨ (t.kind.isNumber = true ∧ u.kind.isNumber = true ∧ (t.kind = .imaginary ∨ u.kind ≠ .imaginary))) := by
  have hk : ¬(t.kind = .noType ∨ u.kind = .noType) := not_or.mpr ⟨ht.kind_ne, hu.kind_ne⟩
  simp only [accepts, ht.isUntyped, hu.isUntyped, Bool.or_self, Bool.false_eq_true, if_false, hk]
  by_cases hl : t.level = u.level
  · simp only [hl, ne_eq, not_true_eq_false, if_false, true_and]
    by_cases hn : t.kind.isNumber = true ∧ u.kind.isNumber = true
    · simp only [hn, Bool.and_self, if_true, true_and]
      by_cases he : t = u
      · subst he
        cases t.kind <;> simp
      · simp [he]
    · have hb : (t.kind.isNumber && u.kind.isNumber) = false := by
        cases h : t.kind.isNumber <;> cases h' : u.kind.isNumber <;> simp_all
      rw [hb]
      simp only [Bool.false_eq_true, if_false, beq_iff_eq]
      exact ⟨.inl, fun h => h.elim id fun h => absurd ⟨h.1, h.2.1⟩ hn⟩
  · simp [hl]

theorem accepts_trans {w : Ty} (ht : t.Solid) (hu : u.Solid) (hw : w.Solid) (h : t.accepts u = true)
    (h' : u.accepts w = true) : t.accepts w = true := by
  rw [accepts_iff ht hu] at h
  rw [accepts_iff hu hw] at h'
  rw [accepts_iff ht hw]
  obtain ⟨hl, h⟩ := h
  obtain ⟨hl', h'⟩ := h'
  refine ⟨hl.trans hl', ?_⟩
  rcases h with rfl | ⟨hn, hn', hi⟩
  · exact h'
  · rcases h' with rfl | ⟨-, hw', hi'⟩
    · exact .inr ⟨hn, hn', hi⟩
    · refine .inr ⟨hn, hw', hi.imp id fun hi => hi'.resolve_left hi⟩

/-- A common type of elements takes all of them. -/
theorem unify {c : Ty} (ht : t.Solid) (hu : u.Solid) (h : unify? t u = some c) :
    c.Solid ∧ c.accepts t = true ∧ c.accepts u = true := by
  rcases unify?_cases h with ⟨h, -⟩ | ⟨rfl, h | rfl⟩ | ⟨hn, hn', hp⟩ | ⟨-, h, -⟩ | ⟨-, h, -⟩
  · rw [ht.isUntyped] at h
    cases h
  · rw [hu.isUntyped] at h
    cases h
  · exact ⟨ht, accepts_self _, accepts_self _⟩
  · rcases ht.number hn with rfl | rfl | rfl <;> rcases hu.number hn' with rfl | rfl | rfl <;> cases hp <;>
      exact ⟨.plain nofun nofun nofun, rfl, rfl⟩
  · exact absurd h ht.kind_ne
  · exact absurd h hu.kind_ne

end Ty.Solid

/-! ## Values -/

namespace Value

theorem Solid.isNull {v : Value} (h : v.Solid) : v.isNull = false := by
  cases h <;> rfl

theorem Solid.type {v : Value} (h : v.Solid) : v.type.Solid := by
  induction h with
  | tuple ht _ ih =>
    subst ht
    refine .row fun t hmem => ?_
    obtain ⟨v, hv, rfl⟩ := List.mem_map.mp hmem
    exact ih v hv
  | collection he _ _ _ => exact he.arrayOf
  | _ => exact .plain nofun nofun nofun

theorem Solid.hasType {v : Value} (h : v.Solid) : v.HasType v.type := ⟨h, rfl⟩

namespace HasType

variable {v : Value} {t : Ty}

theorem tySolid (h : v.HasType t) : t.Solid := h.type ▸ h.solid.type

theorem isA (h : v.HasType t) : v.IsA t := ⟨h.solid.isNull, h.type⟩

/-- What a value of a scalar type is made of. -/
theorem form (h : v.HasType t) {k : Kind} (hk : t.isScalar k = true) :
    match k with
    | .boolean => ∃ b, v = .boolean b
    | .integer => ∃ n, v = .integer n
    | .numeric => ∃ x, v = .numeric x
    | .imaginary => ∃ z, v = .imaginary z
    | .literal => ∃ s, v = .literal s
    | .tabchar => ∃ bytes, v = .tabchar bytes
    | .tuple => ∃ fields declared, v = .tuple fields declared
    | .noType | .object => False := by
  have hf := h.isA.form hk
  cases k with
  | object =>
    obtain ⟨native, id, rfl⟩ := hf
    cases h.solid
  | _ => exact hf

/-- What a value of a tuple type is made of. -/
theorem row (h : v.HasType t) {fields : List Ty} (hf : t.fields? = some fields) :
    ∃ vs, v = .tuple vs fields ∧ vs.map Value.type = fields ∧ ∀ w ∈ vs, w.Solid := by
  obtain ⟨rfl, -⟩ := h.tySolid.fields? hf
  obtain ⟨vs, declared, rfl⟩ := h.form (k := .tuple) rfl
  cases h.solid with
  | tuple ht hs =>
    cases h.type
    exact ⟨vs, rfl, ht, hs⟩

/-- What a value of a collection type is made of. -/
theorem elements (h : v.HasType t) {e : Ty} (he : t.element? = some e) :
    ∃ items, v = .collection e items ∧ ∀ w ∈ items, w.HasType e := by
  obtain ⟨hs, rfl⟩ := h
  have hl : 0 < v.type.level := by
    rw [Ty.eq_arrayOf_of_element? he]
    simp
  obtain ⟨e', items, rfl⟩ := (level_type_pos hs.isNull).mp hl
  simp only [Value.type, Ty.arrayOf_element?, Option.some.injEq] at he
  subst he
  cases hs with
  | collection _ ht hi => exact ⟨items, rfl, fun w hw => ⟨hi w hw, ht w hw⟩⟩

theorem accepts (h : v.HasType t) : t.accepts v.type = true := by
  rw [h.type]
  exact Ty.accepts_self t

end HasType

/-- A collection of values of one type. -/
theorem hasType_collection {e : Ty} (he : e.Solid) {items : List Value} (h : ∀ v ∈ items, v.HasType e) :
    (Value.collection e items).HasType e.arrayOf :=
  ⟨.collection he (fun v hv => (h v hv).type) fun v hv => (h v hv).solid, rfl⟩

/-! ## Conversion -/

/-- All values of a list are converted if each of them is. -/
theorem lands_coerceAll {t : Ty} {vs : List Value} (h : ∀ v ∈ vs, Lands (v.coerce t) (·.HasType t)) :
    Lands (coerceAll vs t) fun ws => ∀ w ∈ ws, w.HasType t := by
  induction vs with
  | nil => simp [coerceAll]
  | cons v vs ih =>
    have hv := h v List.mem_cons_self
    have hvs := ih fun w hw => h w (List.mem_cons_of_mem _ hw)
    simp only [coerceAll]
    cases hc : v.coerce t with
    | error c =>
      rw [hc] at hv
      exact hv
    | ok w =>
      rw [hc] at hv
      cases hcs : coerceAll vs t with
      | error c =>
        rw [hcs] at hvs
        exact hvs
      | ok ws =>
        rw [hcs] at hvs
        intro x hx
        rcases List.mem_cons.mp hx with rfl | hx
        · exact hv
        · exact hvs x hx

/-- A scalar is converted by kinds. Only a numeric may be out of the range of integers. -/
theorem lands_convert {v : Value} (hv : v.Solid) (t : Ty) : Lands (convert v t) Value.Solid := by
  cases hv with
  | integer n =>
    simp only [convert]
    split
    · exact .numeric _
    · split
      · exact .imaginary _
      · exact .integer n
  | numeric x =>
    simp only [convert]
    split
    · exact .imaginary _
    · split
      · refine Lands.map (P := fun _ => True) ?_ fun n _ => .integer n
        unfold truncate
        split <;> simp [Fault.Cause.isTypeError]
      · exact .numeric x
  | boolean b => exact .boolean b
  | imaginary z => exact .imaginary z
  | literal s => exact .literal s
  | tabchar bytes => exact .tabchar bytes
  | tuple ht hs => exact .tuple ht hs
  | collection he ht hs => exact .collection he ht hs

/-- What is no collection is converted by kinds. -/
theorem lands_coerce_scalar {v : Value} (hv : v.Solid) {t : Ty} (ht : t.Solid)
    (hc : v.coerce t = convert v t) : Lands (v.coerce t) (·.HasType t) := by
  have h := lands_convert hv t
  rw [← hc] at h
  cases hw : v.coerce t with
  | error c =>
    rw [hw] at h
    exact h
  | ok w =>
    rw [hw] at h
    exact ⟨h, type_of_coerce hw ht.isExact⟩

/-- A value that a slot accepts is converted to the type of the slot. -/
theorem Solid.coerce {v : Value} (hv : v.Solid) : ∀ {t : Ty}, t.Solid → t.accepts v.type = true →
    Lands (v.coerce t) (·.HasType t) := by
  induction hv with
  | @collection e items he hit hs ih =>
    intro t ht ha
    have hl := Ty.accepts_level ha ht.isUntyped (he.arrayOf).isUntyped
    obtain ⟨e', he'⟩ := Ty.element?_of_level_pos (t := t) (by rw [hl]; simp [Value.type])
    have hte := Ty.eq_arrayOf_of_element? he'
    have hes := ht.element he'
    have ha' : t.accepts e.arrayOf = true := ha
    simp only [Value.coerce, ht.isUntyped, ha', he', Bool.not_true, Bool.false_eq_true, if_false]
    split
    · rename_i h
      rw [← h]
      exact hasType_collection he fun v hv => ⟨hs v hv, hit v hv⟩
    · have hall := lands_coerceAll fun v hv => ih v hv hes (by
        rw [hit v hv, ← hes.accepts_arrayOf he, ← hte]
        exact ha)
      cases hc : coerceAll items e' with
      | error c =>
        rw [hc] at hall
        exact hall
      | ok ws =>
        rw [hc] at hall
        rw [hte]
        exact hasType_collection hes hall
  | tuple htd hs _ =>
    intro t ht ha
    refine lands_coerce_scalar (.tuple htd hs) ht ?_
    simp only [Value.coerce, ht.isUntyped, ha, Bool.not_true, Bool.false_eq_true, if_false]
  | _ =>
    intro t ht ha
    refine lands_coerce_scalar (by constructor) ht ?_
    simp only [Value.coerce, ht.isUntyped, ha, Bool.not_true, Bool.false_eq_true, if_false]

end Value

/-! ## Building collections -/

namespace Collection

/-- The common type of some values takes all of them. -/
theorem unifyAll_accepts {vs : List Value} (hvs : ∀ v ∈ vs, v.Solid) : ∀ {t u : Ty}, t.Solid →
    unifyAll t vs = .ok u → u.Solid ∧ u.accepts t = true ∧ ∀ v ∈ vs, u.accepts v.type = true := by
  induction vs with
  | nil =>
    intro t u ht h
    cases h
    exact ⟨ht, Ty.accepts_self t, by simp⟩
  | cons v vs ih =>
    intro t u ht h
    have hv := hvs v List.mem_cons_self
    simp only [unifyAll] at h
    split at h
    · rename_i w hw
      obtain ⟨hws, hwt, hwv⟩ := ht.unify hv.type hw
      obtain ⟨hus, huw, hall⟩ := ih (fun x hx => hvs x (List.mem_cons_of_mem _ hx)) hws h
      refine ⟨hus, hus.accepts_trans hws ht huw hwt, fun x hx => ?_⟩
      rcases List.mem_cons.mp hx with rfl | hx
      · exact hus.accepts_trans hws hv.type huw hwv
      · exact hall x hx
    · cases h

/-- Values with a common type make a collection of this type. -/
theorem lands_ofValues {v : Value} {vs : List Value} (hvs : ∀ w ∈ v :: vs, w.Solid) {t : Ty}
    (ht : unifyAll Ty.untyped (v :: vs) = .ok t) : Lands (ofValues (v :: vs)) (·.value.HasType t.arrayOf) := by
  have hv := hvs v List.mem_cons_self
  have ht' : unifyAll v.type vs = .ok t := by
    simpa [unifyAll, Ty.unify?, Ty.isUntyped, Ty.kind, Ty.level] using ht
  obtain ⟨hts, hacc, hall⟩ := unifyAll_accepts (fun w hw => hvs w (List.mem_cons_of_mem _ hw)) hv.type ht'
  have haccepts : ∀ w ∈ v :: vs, t.accepts w.type = true := by
    intro w hw
    rcases List.mem_cons.mp hw with rfl | hw
    · exact hacc
    · exact hall w hw
  have hlands := Value.lands_coerceAll fun w hw => (hvs w hw).coerce hts (haccepts w hw)
  simp only [ofValues, ht]
  exact hlands.map fun ws hws => Value.hasType_collection hts hws

end Collection
end Crunch
