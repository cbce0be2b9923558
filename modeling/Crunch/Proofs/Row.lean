import Crunch.Proofs.Coerce
import Crunch.Proofs.Method

/-!
# Crunch.Proofs.Row

Tuples under writes to their fields.

* `Row.Shaped`: the number of fields and their declared types are those that the tuple was built with, and
  every field holds a value of its type.
* `Row.Answers`: what one write does, by its position and its value.
* `Row.shaped_set`, `Row.shaped_written`: one write, and any number of them, keep the shape.
-/

namespace Crunch
namespace Row

variable {vs : List Value} {r r' : Row} {p : Nat} {v : Value}

/-- A tuple of the shape that it got from the values `vs`. A field that is declared with a number type that
carries fields or a name, as only a null has it, may also hold a number that has just the kind. -/
structure Shaped (vs : List Value) (r : Row) : Prop where
  arity : r.arity = vs.length
  declared : r.declared = vs.map Value.type
  field (q : Nat) (t : Ty) (w : Value) : r.declared[q]? = some t → r.fields[q]? = some w → t.isUntyped = false →
    w.type = t ∨ (t.isExact = false ∧ w.type = Ty.scalar t.kind)

/-- What a write to field `p` answers, and what it leaves of the tuple. -/
structure Answers (r : Row) (p : Nat) (v : Value) : Prop where
  outside : ¬(1 ≤ p ∧ p ≤ r.arity) → r.set p v = .error (.indexRange (lengthOf p) r.arity)
  inside : 1 ≤ p ∧ p ≤ r.arity → ∀ i n, r.set p v ≠ .error (.indexRange i n)
  failed (c : Fault.Cause) : r.set p v = .error c → r.value.mutate (.setField p) [v] = (r.value, .error c)
  done (r' : Row) : r.set p v = .ok r' → r.value.mutate (.setField p) [v] = (r'.value, .ok ()) ∧
    (∃ t w, r.declared[p - 1]? = some t ∧ v.coerce t = .ok w ∧ r'.fields[p - 1]? = some w) ∧
    ∀ q, q ≠ p - 1 → r'.fields[q]? = r.fields[q]?

/-- A tuple after some writes to its fields, in order. -/
def written (v : Value) (writes : List (Nat × Value)) : Value :=
  writes.foldl (fun v w => (v.mutate (.setField w.1) [w.2]).1) v

theorem set_outside (h : ¬(1 ≤ p ∧ p ≤ r.arity)) : r.set p v = .error (.indexRange (lengthOf p) r.arity) :=
  if_pos (by omega)

theorem Shaped.length_declared (h : r.Shaped vs) : r.declared.length = r.arity := by
  rw [h.declared, List.length_map, h.arity]

/-- A position inside is that of a declared type, which the value is converted to. -/
theorem Shaped.set_inside (h : r.Shaped vs) (hp : 1 ≤ p ∧ p ≤ r.arity) :
    ∃ t, r.declared[p - 1]? = some t ∧
      r.set p v = (v.coerce t).map fun w => ⟨r.fields.set (p - 1) w, r.declared⟩ := by
  have hlt : p - 1 < r.declared.length := by
    rw [h.length_declared]
    omega
  refine ⟨r.declared[p - 1], List.getElem?_eq_getElem hlt, ?_⟩
  rw [set, if_neg (by omega), List.getD_eq_getElem?_getD, List.getElem?_eq_getElem hlt, Option.getD_some]

theorem Shaped.answers (h : r.Shaped vs) (p : Nat) (v : Value) : r.Answers p v where
  outside := set_outside
  inside hp i n he := by
    obtain ⟨t, -, hset⟩ := h.set_inside (v := v) hp
    rw [hset] at he
    cases hc : v.coerce t with
    | error c =>
      rw [hc] at he
      cases he
      exact (Value.coerce_error v hc).ne_indexRange i n rfl
    | ok w =>
      rw [hc] at he
      cases he
  failed c he := by
    rw [mutate_setField, he]
    rfl
  done r' hr := by
    refine ⟨by rw [mutate_setField, hr]; rfl, ?_⟩
    by_cases hp : 1 ≤ p ∧ p ≤ r.arity
    · obtain ⟨t, ht, hset⟩ := h.set_inside (v := v) hp
      rw [hset] at hr
      cases hc : v.coerce t with
      | error c =>
        rw [hc] at hr
        cases hr
      | ok w =>
        rw [hc] at hr
        cases hr
        have hlt : p - 1 < r.fields.length := by
          have : r.arity = r.fields.length := rfl
          omega
        refine ⟨⟨t, w, ht, hc, List.getElem?_set_self hlt⟩, fun q hq => ?_⟩
        exact List.getElem?_set_ne (Ne.symm hq)
    · rw [set_outside hp] at hr
      cases hr

theorem shaped_ofValues (vs : List Value) : (ofValues vs).Shaped vs where
  arity := rfl
  declared := rfl
  field q t w ht hw _ := by
    simp only [ofValues, List.getElem?_map] at ht hw
    rw [hw] at ht
    cases ht
    exact .inl rfl

/-- One write keeps the shape. -/
theorem shaped_set (h : r.Shaped vs) (hr : r.set p v = .ok r') : r'.Shaped vs where
  arity := (declared_set hr).2.trans h.arity
  declared := (declared_set hr).1.trans h.declared
  field q t w ht hw hu := by
    obtain ⟨-, ⟨t', w', ht', hc, hw'⟩, hothers⟩ := (h.answers p v).done r' hr
    rw [(declared_set hr).1] at ht
    by_cases hq : q = p - 1
    · subst hq
      cases ht.symm.trans ht'
      cases hw.symm.trans hw'
      exact Value.type_of_coerce_cases hc hu
    · rw [hothers q hq] at hw
      exact h.field q t w ht hw hu

/-- Any number of writes keep the shape. -/
theorem shaped_written (h : r.Shaped vs) (writes : List (Nat × Value)) :
    ∃ r' : Row, written r.value writes = r'.value ∧ r'.Shaped vs := by
  induction writes generalizing r with
  | nil => exact ⟨r, rfl, h⟩
  | cons w writes ih =>
    show ∃ r' : Row, written (r.value.mutate (.setField w.1) [w.2]).1 writes = r'.value ∧ r'.Shaped vs
    cases hr : r.set w.1 w.2 with
    | error c =>
      rw [(h.answers w.1 w.2).failed c hr]
      exact ih h
    | ok r' =>
      rw [((h.answers w.1 w.2).done r' hr).1]
      exact ih (shaped_set h hr)

/-- A tuple keeps its type and shape through any writes to its fields, failed ones among them. Each further
write fails for a position without a field, or for a value that does not convert, and changes nothing; or it
changes the one field. -/
theorem keeps_shape (vs : List Value) (writes : List (Nat × Value)) :
    ∃ r : Row, written (ofValues vs).value writes = r.value ∧ r.Shaped vs ∧
      r.value.type = (ofValues vs).value.type ∧ ∀ p v, r.Answers p v := by
  obtain ⟨r, hr, h⟩ := shaped_written (shaped_ofValues vs) writes
  exact ⟨r, hr, h, congrArg Ty.tuple h.declared, h.answers⟩

/-- A field that was built with a null of a number type that carries a field takes a plain number. -/
theorem field_strays :
    ∃ (r : Row) (t : Ty) (w : Value),
      written (ofValues [.null (.row .integer 0 [Ty.integer])]).value [(1, .integer 1)] = r.value ∧
        r.declared[0]? = some t ∧ r.fields[0]? = some w ∧ t.isUntyped = false ∧ w.type ≠ t :=
  ⟨⟨[.integer 1], [.row .integer 0 [Ty.integer]]⟩, .row .integer 0 [Ty.integer], .integer 1, rfl, rfl, rfl, rfl,
    nofun⟩

end Row
end Crunch
