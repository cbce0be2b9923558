import Crunch.Proofs.Collection

/-!
# Crunch.Proofs.Conversion

Conversions land exactly on their target.

* `Ty.WellFormed`: only tuple types carry fields, and only object types carry a name.
* `Value.Uniform`: every collection inside a value, itself included, is uniform.
* `Value.uniform_coerce`: a conversion to a type with a kind keeps a value uniform.
* `Value.coerce_exactly`: what a conversion to a well-formed type gives, and when it fails at once.
-/

namespace Crunch

/-- Types in which only tuple types carry fields, themselves well formed, and only object types
carry a name. -/
inductive Ty.WellFormed : Ty → Prop where
  | plain (k : Kind) (l : Nat) : WellFormed (.plain k l)
  | row (l : Nat) {fields : List Ty} : (∀ t ∈ fields, WellFormed t) → WellFormed (.row .tuple l fields)
  | named (l : Nat) (name : String) : WellFormed (.named .object l name)

/-- Values that have a well-formed type, other than the untyped one, have it exactly. -/
theorem Ty.WellFormed.isExact {t : Ty} (h : t.WellFormed) (hu : t.isUntyped = false) : t.isExact = true := by
  cases h with
  | plain k l =>
    by_cases hl : l = 0
    · subst hl
      refine isExact_scalar fun hk => ?_
      simp [hk, isUntyped, kind, level] at hu
    · exact isExact_of_level_pos (Nat.pos_of_ne_zero hl)
  | row l _ => simp [Ty.isExact, hu, isNumber, kind, Kind.isNumber]
  | named l name => simp [Ty.isExact, hu, isNumber, kind, Kind.isNumber]

/-- A type is as well formed as the types of its collections. -/
theorem Ty.WellFormed.of_arrayOf {t : Ty} (h : t.arrayOf.WellFormed) : t.WellFormed := by
  cases t with
  | plain k l => exact .plain k l
  | row k l fields =>
    cases h with
    | row _ hf => exact .row l hf
  | named k l name =>
    cases h with
    | named _ _ => exact .named l name

namespace Value

/-- Every collection inside a value, itself included, is uniform. -/
inductive Uniform : Value → Prop where
  | tuple {fields : List Value} (declared : List Ty) : (∀ v ∈ fields, Uniform v) → Uniform (.tuple fields declared)
  | collection {e : Ty} {items : List Value} :
      Collection.Uniform ⟨e, items⟩ → (∀ v ∈ items, Uniform v) → Uniform (.collection e items)
  | single {v : Value} : (∀ fields declared, v ≠ .tuple fields declared) →
      (∀ e items, v ≠ .collection e items) → Uniform v

theorem Uniform.items {e : Ty} {items : List Value} (h : (Value.collection e items).Uniform) :
    ∀ v ∈ items, v.Uniform := by
  cases h with
  | collection _ hall => exact hall
  | single _ hc => exact absurd rfl (hc e items)

/-- The conversion by kinds makes nothing with parts: a value with parts stays as it is. -/
theorem uniform_convert {v w : Value} {t : Ty} (h : convert v t = .ok w) (hv : v.Uniform) : w.Uniform := by
  cases v with
  | null u =>
    cases h
    exact .single (by simp) (by simp)
  | integer n =>
    simp only [convert] at h
    split at h
    · cases h
      exact .single (by simp) (by simp)
    · split at h <;> cases h <;> exact .single (by simp) (by simp)
  | numeric x =>
    simp only [convert] at h
    split at h
    · cases h
      exact .single (by simp) (by simp)
    · split at h
      · cases hx : truncate x with
        | error c => rw [hx] at h; cases h
        | ok n =>
          rw [hx] at h
          cases h
          exact .single (by simp) (by simp)
      · cases h
        exact hv
  | _ =>
    cases h
    exact hv

mutual

/-- A conversion to a type with a kind keeps a value uniform: elements are converted to the element
type, which then is their type, and their own elements in turn. -/
theorem uniform_coerce (v : Value) {w : Value} {t : Ty} (h : v.coerce t = .ok w) (ht : t.WellFormed)
    (hk : t.kind ≠ .noType) (hv : v.Uniform) : w.Uniform := by
  have hu : t.isUntyped = false := by simp [Ty.isUntyped, hk]
  cases v with
  | collection e items =>
    simp only [coerce, hu, Bool.false_eq_true, if_false] at h
    split at h
    · cases h
    · split at h
      · cases h
        exact hv
      · split at h
        · rename_i e' he'
          split at h
          · rename_i ws hws
            cases h
            obtain rfl := Ty.eq_arrayOf_of_element? he'
            have hk' : e'.kind ≠ .noType := by simpa using hk
            have hx : e'.isExact = true := ht.of_arrayOf.isExact (by simp [Ty.isUntyped, hk'])
            refine .collection (fun x hmem => .inr ?_) (uniform_coerceAll items hws ht.of_arrayOf hk' hv.items)
            obtain ⟨y, -, hy⟩ := (Collection.mem_of_coerceAll hws).2 x hmem
            exact type_of_coerce hy hx
          · cases h
        · cases h
          exact hv
  | _ =>
    obtain ⟨-, hc⟩ := convert_of_coerce h hu nofun
    exact uniform_convert hc hv

theorem uniform_coerceAll (vs : List Value) {ws : List Value} {t : Ty} (h : coerceAll vs t = .ok ws)
    (ht : t.WellFormed) (hk : t.kind ≠ .noType) (hvs : ∀ v ∈ vs, v.Uniform) : ∀ w ∈ ws, w.Uniform := by
  cases vs with
  | nil =>
    cases h
    exact List.forall_mem_nil _
  | cons v vs =>
    simp only [coerceAll] at h
    cases hw : v.coerce t with
    | error c => rw [hw] at h; cases h
    | ok w =>
      rw [hw] at h
      cases hws : coerceAll vs t with
      | error c => rw [hws] at h; cases h
      | ok ws' =>
        rw [hws] at h
        cases h
        obtain ⟨hv, hvs⟩ := List.forall_mem_cons.mp hvs
        exact List.forall_mem_cons.mpr ⟨uniform_coerce v hw ht hk hv, uniform_coerceAll vs hws ht hk hvs⟩

end

/-- What is not accepted is not converted. -/
theorem coerce_of_not_accepts {t : Ty} (v : Value) (ha : t.accepts v.type = false) :
    v.coerce t = .error (.mismatch (.storing v.type t)) := by
  have hu : t.isUntyped = false := by
    cases hu : t.isUntyped with
    | false => rfl
    | true => simp [Ty.accepts, hu] at ha
  cases v with
  | collection e items =>
    have ha' : t.accepts e.arrayOf = false := ha
    simp [coerce, hu, ha', type]
  | _ => simp [coerce, hu, ha]

/-- A conversion to a well-formed type fails with a mismatch if the type does not accept the value.
One that succeeds gives a value of exactly this type, which further conversions to it leave alone;
an untyped slot takes the value as it is. Unless the type has no kind, a value in which all
collections are uniform stays one. -/
theorem coerce_exactly {t : Ty} (ht : t.WellFormed) (v : Value) :
    (t.accepts v.type = false → v.coerce t = .error (.mismatch (.storing v.type t))) ∧
      ∀ w, v.coerce t = .ok w →
        (if t.isUntyped then w = v else w.type = t) ∧ w.coerce t = .ok w ∧
          (t.kind ≠ .noType → v.Uniform → w.Uniform) := by
  refine ⟨coerce_of_not_accepts v, fun w hw => ?_⟩
  cases hu : t.isUntyped with
  | true =>
    rw [coerce_untyped v hu] at hw
    cases hw
    exact ⟨rfl, coerce_untyped v hu, fun _ => id⟩
  | false =>
    have hty : w.type = t := type_of_coerce hw (ht.isExact hu)
    exact ⟨hty, hty ▸ coerce_self w, uniform_coerce v hw ht⟩

/-- Integers in a collection of collections, nulls among them, become numerics. -/
theorem coerce_exactly_nested :
    ∃ w, (Value.collection (.plain .integer 1)
          [.collection Ty.integer [.integer 1, .null Ty.untyped], .null (.plain .integer 1)]).coerce
        (.plain .numeric 2) = .ok w ∧
      w.type = .plain .numeric 2 ∧ w.coerce (.plain .numeric 2) = .ok w ∧ w.Uniform := by
  have hinner : (Value.collection Ty.integer [.integer 1, .null Ty.untyped]).Uniform := by
    refine .collection (by simp [Collection.Uniform, type, isNull]) ?_
    exact List.forall_mem_cons.mpr ⟨.single (by simp) (by simp), List.forall_mem_singleton.mpr (.single (by simp) (by simp))⟩
  have houter : (Value.collection (.plain .integer 1)
      [.collection Ty.integer [.integer 1, .null Ty.untyped], .null (.plain .integer 1)]).Uniform := by
    refine .collection (by simp [Collection.Uniform, type, isNull, Ty.arrayOf, Ty.withLevel, Ty.level]) ?_
    exact List.forall_mem_cons.mpr ⟨hinner, List.forall_mem_singleton.mpr (.single (by simp) (by simp))⟩
  obtain ⟨w, hw⟩ : ∃ w, (Value.collection (.plain .integer 1)
      [.collection Ty.integer [.integer 1, .null Ty.untyped], .null (.plain .integer 1)]).coerce
        (.plain .numeric 2) = .ok w := ⟨_, rfl⟩
  obtain ⟨htype, hagain, huniform⟩ := (coerce_exactly (.plain .numeric 2) _).2 w hw
  exact ⟨w, hw, htype, hagain, huniform (by decide) houter⟩

end Value
end Crunch
