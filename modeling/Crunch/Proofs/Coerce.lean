import Crunch.Proofs.Ty
import Crunch.Value.Coerce

/-!
# Crunch.Proofs.Coerce

Where conversions land.

* `Value.type_of_coerce_cases`, `Value.type_of_coerce`: the type of a converted value. It is the type
  converted to, if this is exact.
* `Value.type_of_coerce_number`: a number converted to any number type is of its kind.
* `Value.isExact_type`: only nulls have a type that is not exact.
* `Value.coerce_error`: why conversions fail.
-/

namespace Crunch
namespace Value

theorem isNull_iff {v : Value} : v.isNull = true ↔ ∃ t, v = .null t := by
  cases v <;> simp [isNull]

/-- Values other than nulls have exact types. -/
theorem isExact_type {v : Value} (h : v.isNull = false) : v.type.isExact = true := by
  cases v with
  | null t => simp [isNull] at h
  | collection e items => exact Ty.isExact_arrayOf e
  | tuple fields declared => simp [type, Ty.isExact, Ty.isUntyped, Ty.isNumber, Ty.kind, Kind.isNumber]
  | object native id => simp [type, Ty.isExact, Ty.isUntyped, Ty.isNumber, Ty.kind, Kind.isNumber]
  | _ => exact Ty.isExact_scalar (by simp)

theorem type_ne_of_not_isExact {v : Value} {t : Ty} (h : v.isNull = false) (ht : t.isExact = false) :
    v.type ≠ t := by
  intro he
  rw [← he, isExact_type h] at ht
  cases ht

theorem isUntyped_type {v : Value} (h : v.isNull = false) : v.type.isUntyped = false := by
  have := isExact_type h
  simp only [Ty.isExact, Bool.and_eq_true, Bool.not_eq_true'] at this
  exact this.1

/-- A value other than a null has a kind, unless it is a collection. -/
theorem kind_type_ne {v : Value} (h : v.isNull = false) (hl : v.type.level = 0) :
    v.type.kind ≠ .noType := by
  intro hk
  have := isUntyped_type h
  simp [Ty.isUntyped, hk, hl] at this

/-- A collection is recognized by the level of its type. -/
theorem level_type_pos {v : Value} (h : v.isNull = false) :
    0 < v.type.level ↔ ∃ e items, v = .collection e items := by
  constructor
  · intro hl
    cases v with
    | collection e items => exact ⟨e, items, rfl⟩
    | null t => simp [isNull] at h
    | _ => cases hl
  · rintro ⟨e, items, rfl⟩
    simp [type]

@[simp] theorem coerce_untyped (v : Value) {t : Ty} (h : t.isUntyped = true) : v.coerce t = .ok v := by
  cases v <;> simp [coerce, h]

/-- What can be converted is accepted, and is converted by kinds unless it is a collection. -/
theorem convert_of_coerce {v w : Value} {t : Ty} (h : v.coerce t = .ok w) (ht : t.isUntyped = false)
    (hv : ∀ e items, v ≠ .collection e items) : t.accepts v.type = true ∧ convert v t = .ok w := by
  have key : v.coerce t = if !t.accepts v.type then .error (.mismatch (.storing v.type t)) else convert v t := by
    cases v with
    | collection e items => exact absurd rfl (hv e items)
    | _ => simp only [coerce, ht, Bool.false_eq_true, if_false]
  rw [key] at h
  split at h
  · cases h
  · rename_i ha
    exact ⟨by simpa using ha, h⟩

/-- The kind that a slot gives to a number. -/
theorem type_of_convert_number {v w : Value} {t : Ty} (h : convert v t = .ok w) (hv : v.type.isNumber = true)
    (hn : v.isNull = false) (ht : t.isNumber = true) (ha : t.accepts v.type = true) :
    w.type = Ty.scalar t.kind := by
  obtain ⟨hl, hk⟩ := Ty.isNumber_iff.mp ht
  have hu : t.isUntyped = false := by
    cases hkind : t.kind <;> simp_all [Ty.isUntyped, Kind.isNumber]
  cases v with
  | null u => simp [isNull] at hn
  | integer n =>
    cases hkind : t.kind <;> simp_all [Kind.isNumber, convert, Ty.isScalar] <;> cases h <;> rfl
  | numeric x =>
    cases hkind : t.kind <;> simp_all [Kind.isNumber, convert, Ty.isScalar]
    · cases hx : truncate x with
      | error c => rw [hx] at h; cases h
      | ok n => rw [hx] at h; cases h; rfl
    all_goals cases h; rfl
  | imaginary z =>
    cases hkind : t.kind <;>
      simp_all [Kind.isNumber, convert, Ty.accepts, Ty.level, Ty.kind, type, Ty.isUntyped]
    cases h
    rfl
  | collection e items => simp [type, Ty.isNumber] at hv
  | _ => simp [type, Ty.isNumber, Ty.kind, Kind.isNumber] at hv

theorem convert_of_not_number {v : Value} {t : Ty} (hv : v.type.isNumber = false) (hn : v.isNull = false) :
    convert v t = .ok v := by
  cases v <;> simp_all [convert, type, Ty.isNumber, Ty.level, Ty.kind, Kind.isNumber, isNull]

/-- A null converted to a type has it. -/
theorem type_of_coerce_null {u t : Ty} {w : Value} (h : (Value.null u).coerce t = .ok w)
    (ht : t.isUntyped = false) : w.type = t := by
  obtain ⟨-, hc⟩ := convert_of_coerce h ht (by simp)
  cases hc
  rfl

/-- A collection converted to a type has it. -/
theorem type_of_coerce_collection {e t : Ty} {items : List Value} {w : Value}
    (h : (Value.collection e items).coerce t = .ok w) (ht : t.isUntyped = false) : w.type = t := by
  simp only [coerce, ht, Bool.false_eq_true, if_false] at h
  split at h
  · cases h
  · rename_i ha
    split at h
    · rename_i he
      cases h
      exact he
    · split at h
      · rename_i e' he'
        split at h
        · cases h
          exact (Ty.eq_arrayOf_of_element? he').symm
        · cases h
      · rename_i hnone
        have hl := Ty.accepts_level (by simpa using ha) ht (by simp)
        rw [Ty.element?_eq_none.mp hnone] at hl
        simp at hl

/-- A value of level zero that fits a slot has its type, numbers excepted. -/
theorem type_of_coerce_scalar {v w : Value} {t : Ty} (h : v.coerce t = .ok w) (ht : t.isUntyped = false)
    (hn : v.isNull = false) (hv : ∀ e items, v ≠ .collection e items) :
    w.type = if t.isNumber then Ty.scalar t.kind else t := by
  obtain ⟨ha, hc⟩ := convert_of_coerce h ht hv
  have hl : v.type.level = 0 := by
    by_cases hp : 0 < v.type.level
    · obtain ⟨e, items, he⟩ := (level_type_pos hn).mp hp
      exact absurd he (hv e items)
    · omega
  have hlt : t.level = 0 := (Ty.accepts_level ha ht (isUntyped_type hn)).trans hl
  have hkv := kind_type_ne hn hl
  have hkt : t.kind ≠ .noType := by
    intro hk
    simp [Ty.isUntyped, hk, hlt] at ht
  by_cases hnum : t.kind.isNumber = true ∧ v.type.kind.isNumber = true
  · have htn : t.isNumber = true := Ty.isNumber_iff.mpr ⟨hlt, hnum.1⟩
    have hvn : v.type.isNumber = true := Ty.isNumber_iff.mpr ⟨hl, hnum.2⟩
    rw [if_pos htn]
    exact type_of_convert_number hc hvn hn htn ha
  · have he : t = v.type := Ty.accepts_eq ha hkt hkv (by
      cases h1 : t.kind.isNumber <;> cases h2 : v.type.kind.isNumber <;> simp_all)
    have hvn : v.type.isNumber = false := by
      cases hvn : v.type.isNumber with
      | false => rfl
      | true =>
        have := (Ty.isNumber_iff.mp hvn).2
        exact absurd ⟨he ▸ this, this⟩ hnum
    rw [convert_of_not_number hvn hn] at hc
    cases hc
    rw [he, if_neg (by simp [hvn])]

/-- A value converted to a type that is not the untyped one has it, unless the type is a number type that
carries fields or a name. Then a number may have only its kind. -/
theorem type_of_coerce_cases {v w : Value} {t : Ty} (h : v.coerce t = .ok w) (ht : t.isUntyped = false) :
    w.type = t ∨ (t.isExact = false ∧ w.type = Ty.scalar t.kind) := by
  by_cases hn : v.isNull = true
  · obtain ⟨u, rfl⟩ := isNull_iff.mp hn
    exact .inl (type_of_coerce_null h ht)
  · by_cases hc : ∃ e items, v = .collection e items
    · obtain ⟨e, items, rfl⟩ := hc
      exact .inl (type_of_coerce_collection h ht)
    · have hw := type_of_coerce_scalar h ht (by simpa using hn) fun e items he => hc ⟨e, items, he⟩
      split at hw
      · rename_i hnum
        cases hx : t.isExact with
        | true => exact .inl (hw.trans (Ty.eq_scalar_of_isExact hx hnum).symm)
        | false => exact .inr ⟨rfl, hw⟩
      · exact .inl hw

theorem type_of_coerce {v w : Value} {t : Ty} (h : v.coerce t = .ok w) (ht : t.isExact = true) :
    w.type = t := by
  have hu : t.isUntyped = false := by
    simp only [Ty.isExact, Bool.and_eq_true, Bool.not_eq_true'] at ht
    exact ht.1
  rcases type_of_coerce_cases h hu with hw | ⟨hx, -⟩
  · exact hw
  · rw [ht] at hx
    cases hx

/-- A value stays as it is when it is converted to its own type. -/
theorem coerce_self (v : Value) : v.coerce v.type = .ok v := by
  cases v with
  | null t => simp [coerce, type, convert]
  | collection e items => simp [coerce, type]
  | _ => simp [coerce, type, convert, Ty.isScalar, Ty.kind]

theorem isNull_of_coerce {v w : Value} {t : Ty} (h : v.coerce t = .ok w) : w.isNull = v.isNull := by
  cases v with
  | collection e items =>
    simp only [coerce] at h
    split at h
    · cases h; rfl
    · split at h
      · cases h
      · split at h
        · cases h; rfl
        · split at h
          · split at h <;> cases h
            rfl
          · cases h; rfl
  | null u =>
    by_cases ht : t.isUntyped = true
    · rw [coerce_untyped _ ht] at h
      cases h
      rfl
    · obtain ⟨-, hc⟩ := convert_of_coerce h (by simpa using ht) (by simp)
      cases hc
      rfl
  | numeric x =>
    by_cases ht : t.isUntyped = true
    · rw [coerce_untyped _ ht] at h
      cases h
      rfl
    · obtain ⟨-, hc⟩ := convert_of_coerce h (by simpa using ht) (by simp)
      simp only [convert] at hc
      split at hc
      · cases hc; rfl
      · split at hc
        · cases hx : truncate x <;> rw [hx] at hc <;> cases hc
          rfl
        · cases hc; rfl
  | integer n =>
    by_cases ht : t.isUntyped = true
    · rw [coerce_untyped _ ht] at h
      cases h
      rfl
    · obtain ⟨-, hc⟩ := convert_of_coerce h (by simpa using ht) (by simp)
      simp only [convert] at hc
      split at hc
      · cases hc; rfl
      · split at hc <;> cases hc <;> rfl
  | _ =>
    by_cases ht : t.isUntyped = true
    · rw [coerce_untyped _ ht] at h
      cases h
      rfl
    · obtain ⟨-, hc⟩ := convert_of_coerce h (by simpa using ht) (by simp)
      cases hc
      rfl

/-! ## Failures -/

theorem convert_error {v : Value} {t : Ty} {c : Fault.Cause} (h : convert v t = .error c) :
    ∃ x, c = .outOfRange (.notAnInteger x) := by
  unfold convert at h
  split at h
  · cases h
  · split at h
    · cases h
    · split at h <;> cases h
  · rename_i x
    split at h
    · cases h
    · split at h
      · unfold truncate at h
        split at h <;> cases h
        exact ⟨x, rfl⟩
      · cases h
  · cases h

end Value

/-- Why a conversion fails: a value of another type, or a numeric that is no integer. -/
def Fault.Cause.IsUnfit (c : Fault.Cause) : Prop :=
  (∃ found target, c = .mismatch (.storing found target)) ∨ ∃ x, c = .outOfRange (.notAnInteger x)

theorem Fault.Cause.IsUnfit.ne_indexRange {c : Fault.Cause} (h : c.IsUnfit) (i : Int64) (n : Nat) :
    c ≠ .indexRange i n := by
  rcases h with ⟨found, target, rfl⟩ | ⟨x, rfl⟩ <;> exact nofun

namespace Value

mutual

theorem coerce_error (v : Value) {t : Ty} {c : Fault.Cause} (h : v.coerce t = .error c) : c.IsUnfit := by
  cases v with
  | collection e items =>
    simp only [coerce] at h
    split at h
    · cases h
    · split at h
      · cases h
        exact .inl ⟨_, _, rfl⟩
      · split at h
        · cases h
        · split at h
          · split at h
            · cases h
            · rename_i hitems
              cases h
              exact coerceAll_error items hitems
          · cases h
  | _ =>
    simp only [coerce] at h
    split at h
    · cases h
    · split at h
      · cases h
        exact .inl ⟨_, _, rfl⟩
      · exact .inr (convert_error h)

theorem coerceAll_error (vs : List Value) {t : Ty} {c : Fault.Cause} (h : coerceAll vs t = .error c) : c.IsUnfit := by
  cases vs with
  | nil => cases h
  | cons v vs =>
    simp only [coerceAll] at h
    split at h
    · rename_i hv
      cases h
      exact coerce_error v hv
    · split at h
      · rename_i hvs
        cases h
        exact coerceAll_error vs hvs
      · cases h

end

end Value
end Crunch
