import Crunch.Proofs.Ty
import Crunch.Value.Method

/-!
# Crunch.Proofs.Method

What methods keep of their receiver.

* `Row.mutate_setField`: a write to a field, as a method of a tuple.
* `Value.type_mutate`: a method that changes a value keeps its type, whether it fails or not, unless
  the type is one without a kind.
-/

namespace Crunch
namespace Collection

variable {e : Ty}

/-- A collection with an element kind has adopted a type already. -/
theorem adopted_of_kind (h : e.kind ≠ .noType) (v : Value) : adopted e v = e := by
  simp [adopted, h]

theorem fit_of_kind (h : e.kind ≠ .noType) (v : Value) : fit e v = (e, v.coerce e) := by
  simp [fit, adopted_of_kind h]

theorem fitAll_of_kind (h : e.kind ≠ .noType) (vs : List Value) : fitAll e vs = (e, Value.coerceAll vs e) := by
  induction vs with
  | nil => rfl
  | cons v vs ih =>
    simp only [fitAll, fit_of_kind h, Value.coerceAll]
    cases v.coerce e with
    | error c => rfl
    | ok w =>
      simp only [ih]
      cases Value.coerceAll vs e <;> rfl

theorem insertAll_element {c : Collection} (h : c.element.kind ≠ .noType) (i : Int64) (vs : List Value) :
    (c.insertAll i vs).1.element = c.element := by
  simp only [insertAll, fitAll_of_kind h]
  split
  · rfl
  · cases Value.coerceAll vs c.element <;> rfl

theorem put_element {c : Collection} (h : c.element.kind ≠ .noType) (i : Int64) (v : Value) :
    (c.put i v).1.element = c.element := by
  simp only [put, fit_of_kind h]
  split
  · rfl
  · cases v.coerce c.element <;> rfl

theorem remove_element (c : Collection) (i : Int64) : (c.remove i).1.element = c.element := by
  simp only [remove]
  split <;> rfl

end Collection

namespace Row

theorem mutate_setField (r : Row) (p : Nat) (v : Value) :
    r.value.mutate (.setField p) [v] = r.value.orUnchanged ((r.set p v).map value) := by
  show r.value.orUnchanged _ = _
  cases h : r.set p v with
  | error c => simp only [ofValue?, value, bind, Except.bind, h, Except.map]
  | ok r' => simp only [ofValue?, value, bind, Except.bind, h, pure, Except.pure, Except.map]

theorem declared_set {r r' : Row} {p : Nat} {v : Value} (h : r.set p v = .ok r') :
    r'.declared = r.declared ∧ r'.arity = r.arity := by
  unfold set at h
  split at h
  · cases h
  · cases hc : v.coerce (r.declared.getD (p - 1) Ty.untyped) with
    | error c =>
      rw [hc] at h
      cases h
    | ok w =>
      rw [hc] at h
      cases h
      exact ⟨rfl, List.length_set⟩

end Row

namespace Value

/-- A step on the items of a literal or byte array gives one again. -/
theorem type_orUnchanged {v : Value} {r : Except Fault.Cause Value} (h : ∀ w, r = .ok w → w.type = v.type) :
    (v.orUnchanged r).1.type = v.type := by
  cases r with
  | ok w => exact h w rfl
  | error c => rfl

theorem type_of_map {α : Type} {r : Except Fault.Cause α} {f : α → Value} {t : Ty}
    (h : ∀ a, (f a).type = t) : ∀ w, r.map f = .ok w → w.type = t := by
  intro w hw
  cases r with
  | ok a =>
    cases hw
    exact h a
  | error c => cases hw

theorem type_insert {v : Value} (h : v.type.kind ≠ .noType) (i : Int64) (item : Value) (m : Member) :
    (v.insert i item m).1.type = v.type := by
  cases v with
  | literal s => exact type_orUnchanged (type_of_map fun _ => rfl)
  | tabchar bytes => exact type_orUnchanged (type_of_map fun _ => rfl)
  | collection e items =>
    have he : e.kind ≠ .noType := by simpa [type] using h
    cases item with
    | collection e' items' =>
      simp only [insert]
      split
      · exact congrArg Ty.arrayOf (Collection.insertAll_element he i items')
      · exact congrArg Ty.arrayOf (Collection.insertAll_element he i _)
    | _ => exact congrArg Ty.arrayOf (Collection.insertAll_element he i _)
  | _ => rfl

theorem type_put {v : Value} (h : v.type.kind ≠ .noType) (i : Int64) (item : Value) (m : Member) :
    (v.put i item m).1.type = v.type := by
  cases v with
  | literal s => exact type_orUnchanged (type_of_map fun _ => rfl)
  | tabchar bytes => exact type_orUnchanged (type_of_map fun _ => rfl)
  | collection e items =>
    have he : e.kind ≠ .noType := by simpa [type] using h
    exact congrArg Ty.arrayOf (Collection.put_element he i item)
  | _ => rfl

theorem type_delete (v : Value) (i : Int64) (m : Member) : (v.delete i m).1.type = v.type := by
  cases v with
  | literal s => exact type_orUnchanged (type_of_map fun _ => rfl)
  | tabchar bytes => exact type_orUnchanged (type_of_map fun _ => rfl)
  | collection e items => exact congrArg Ty.arrayOf (Collection.remove_element ⟨e, items⟩ i)
  | _ => rfl

theorem type_append {v : Value} (h : v.type.kind ≠ .noType) (item : Value) (m : Member) :
    (v.append item m).1.type = v.type := by
  unfold append
  split
  · exact type_insert h _ item m
  · rfl

theorem type_withIndex {v index : Value} {step : Int64 → Value × Except Fault.Cause Unit}
    (h : ∀ i, (step i).1.type = v.type) : (v.withIndex index step).1.type = v.type := by
  unfold withIndex
  split
  · exact h _
  · rfl

/-- The fields of a tuple keep their declared types. -/
theorem type_setField (v : Value) (p : Nat) (w : Value) : (v.mutate (.setField p) [w]).1.type = v.type := by
  cases v with
  | tuple fields declared =>
    show ((Row.value ⟨fields, declared⟩).mutate (.setField p) [w]).1.type = _
    rw [Row.mutate_setField]
    cases hr : Row.set ⟨fields, declared⟩ p w with
    | error c => rfl
    | ok r => exact congrArg Ty.tuple (Row.declared_set hr).1
  | _ => rfl

/-- A method that changes a value keeps its type. -/
theorem type_mutate {v : Value} (h : v.type.kind ≠ .noType) (m : Member) (args : List Value) :
    (v.mutate m args).1.type = v.type := by
  unfold mutate
  split
  · exact type_setField v _ _
  · exact type_withIndex fun i => type_insert h i _ _
  · exact type_withIndex fun i => type_put h i _ _
  · exact type_append h _ _
  · exact type_withIndex fun i => type_delete v i _
  · split <;> rfl

end Value
end Crunch
