import Crunch.Proofs.Coerce

/-!
# Crunch.Proofs.Outcome

What a computation gives, and with which errors it may fail.

* `Value.IsA`: a value other than a null, by its type. `Value.IsA.form` is what it is made of when
  the type is a scalar, and `Value.IsA.number` when it is a number type.
* `Yields`: every result is described by a predicate, and so is every error.
-/

namespace Crunch

/-- A value other than a null, of a type. -/
structure Value.IsA (v : Value) (t : Ty) : Prop where
  isNull : v.isNull = false
  type : v.type = t

namespace Value.IsA

variable {v : Value} {t : Ty}

theorem of_isNull (h : v.isNull = false) : v.IsA v.type := ⟨h, rfl⟩

theorem isUntyped (h : v.IsA t) : t.isUntyped = false := h.type ▸ isUntyped_type h.isNull

/-- What a value of a scalar type is made of. -/
theorem form (h : v.IsA t) {k : Kind} (hk : t.isScalar k = true) :
    match k with
    | .boolean => ∃ b, v = .boolean b
    | .integer => ∃ n, v = .integer n
    | .numeric => ∃ x, v = .numeric x
    | .imaginary => ∃ z, v = .imaginary z
    | .literal => ∃ s, v = .literal s
    | .tabchar => ∃ bytes, v = .tabchar bytes
    | .tuple => ∃ fields declared, v = .tuple fields declared
    | .object => ∃ native id, v = .object native id
    | .noType => False := by
  obtain ⟨hn, rfl⟩ := h
  obtain ⟨hl, rfl⟩ := Ty.isScalar_iff.mp hk
  cases v with
  | null t => cases hn
  | collection e items => simp [Value.type] at hl
  | tuple fields declared => exact ⟨fields, declared, rfl⟩
  | object native id => exact ⟨native, id, rfl⟩
  | _ => exact ⟨_, rfl⟩

/-- What a value of a number type is made of. -/
theorem number (h : v.IsA t) (hn : t.isNumber = true) :
    (∃ n, v = .integer n) ∨ (∃ x, v = .numeric x) ∨ ∃ z, v = .imaginary z := by
  obtain ⟨hl, hk⟩ := Ty.isNumber_iff.mp hn
  cases hkind : t.kind with
  | integer => exact .inl (h.form (Ty.isScalar_iff.mpr ⟨hl, hkind⟩))
  | numeric => exact .inr (.inl (h.form (Ty.isScalar_iff.mpr ⟨hl, hkind⟩)))
  | imaginary => exact .inr (.inr (h.form (Ty.isScalar_iff.mpr ⟨hl, hkind⟩)))
  | _ => simp [hkind, Kind.isNumber] at hk

end Value.IsA

/-- A result that a predicate describes, or an error that another one describes. -/
def Yields {α : Type} (r : Except Fault.Cause α) (P : α → Prop) (E : Fault.Cause → Prop) : Prop :=
  match r with
  | .ok a => P a
  | .error c => E c

section Yields

variable {α β : Type} {r : Except Fault.Cause α} {P Q : α → Prop} {E F : Fault.Cause → Prop}

@[simp] theorem yields_ok {a : α} : Yields (.ok a) P E ↔ P a := Iff.rfl

@[simp] theorem yields_pure {a : α} : Yields (pure a) P E ↔ P a := Iff.rfl

@[simp] theorem yields_error {c : Fault.Cause} : Yields (.error c : Except Fault.Cause α) P E ↔ E c := Iff.rfl

theorem Yields.mono (h : Yields r P E) (hp : ∀ a, P a → Q a) (he : ∀ c, E c → F c) : Yields r Q F := by
  cases r with
  | ok a => exact hp a h
  | error c => exact he c h

theorem Yields.bind {f : α → Except Fault.Cause β} {Q : β → Prop} (h : Yields r P E)
    (hf : ∀ a, P a → Yields (f a) Q E) : Yields (r >>= f) Q E := by
  cases r with
  | ok a => exact hf a h
  | error c => exact h

theorem Yields.map {f : α → β} {Q : β → Prop} (h : Yields r P E) (hf : ∀ a, P a → Q (f a)) :
    Yields (r.map f) Q E := by
  cases r with
  | ok a => exact hf a h
  | error c => exact h

theorem yields_ite {p : Prop} [Decidable p] {r' : Except Fault.Cause α} (h : p → Yields r P E)
    (h' : ¬p → Yields r' P E) : Yields (if p then r else r') P E := by
  split
  · rename_i hp
    exact h hp
  · rename_i hp
    exact h' hp

end Yields
end Crunch
