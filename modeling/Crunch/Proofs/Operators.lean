import Crunch.Proofs.Domains
import Crunch.Proofs.Solid

/-!
# Crunch.Proofs.Operators

Operators on solid values.

* `UnaryOp.lands`, `BinaryOp.lands`: on operands in its domain, an operator other than the power
  gives a value of the result type, or fails for another reason than types.
-/

namespace Crunch

/-- Number types and their common type. -/
theorem Ty.Solid.promote {t u w : Ty} (ht : t.Solid) (hu : u.Solid) (h : Ty.promote? t u = some w) :
    (t = Ty.integer ∨ t = Ty.numeric ∨ t = Ty.imaginary) ∧ (u = Ty.integer ∨ u = Ty.numeric ∨ u = Ty.imaginary) := by
  simp only [Ty.promote?, ht.isUntyped, hu.isUntyped] at h
  split at h
  · rename_i hn
    simp only [Bool.and_eq_true] at hn
    exact ⟨ht.number hn.1, hu.number hn.2⟩
  · cases h

/-- A value of a scalar type without further structure is solid. -/
theorem Value.IsA.hasType {v : Value} {k : Kind} (h : v.IsA (Ty.scalar k)) : v.HasType (Ty.scalar k) := by
  refine ⟨?_, h.type⟩
  have ht := h.type
  cases v with
  | null t => cases h.isNull
  | collection e items =>
    have hl : e.arrayOf.level = 0 := congrArg Ty.level ht
    simp at hl
  | tuple fields declared => cases ht
  | object native id => cases ht
  | _ => constructor

namespace Operation

variable {l r : Value} {t u w : Ty}

theorem lands_concat (hl : l.HasType t) (hr : r.HasType u) (h : BinaryOp.add.result? t u = some w)
    (hw : w = Ty.literal ∨ w = Ty.tabchar) : Lands (concat l r) (·.HasType w) := by
  obtain rfl := hl.type
  obtain rfl := hr.type
  refine (yields_concat hl.solid.isNull hr.solid.isNull h hw).mono (fun v hv => ?_) fun _ => False.elim
  rcases hw with rfl | rfl <;> exact hv.hasType

/-- Solid operands of a connective are known. -/
theorem truth_of_boolean {v : Value} (op : BinaryOp) (hv : v.HasType t) (h : t.isOrUntyped .boolean = true) :
    ∃ b, truth op v = .ok (some b) := by
  simp only [Ty.isOrUntyped, hv.tySolid.isUntyped, Bool.false_or] at h
  obtain ⟨b, rfl⟩ := hv.form h
  exact ⟨b, rfl⟩

/-- A connective of known operands is known. -/
theorem hasType_connective (op : BinaryOp) (a b : Bool) :
    (ofTruth (connective op (some a) (some b))).HasType Ty.boolean := by
  cases op <;> cases a <;> cases b <;> exact ⟨.boolean _, rfl⟩

end Operation

/-- The result types of operators on solid operands are scalars. -/
theorem BinaryOp.result?_scalar {op : BinaryOp} {t u w : Ty} (ht : t.Solid) (hu : u.Solid)
    (h : op.result? t u = some w) : ∃ k, w = Ty.scalar k := by
  have hp : ∀ {w}, Ty.promote? t u = some w → ∃ k, w = Ty.scalar k := by
    intro w h
    simp only [Ty.promote?, ht.isUntyped, hu.isUntyped, Option.ite_none_right_eq_some, Option.some.injEq] at h
    exact ⟨_, h.2.symm⟩
  cases op <;> simp only [BinaryOp.result?, Option.filter_eq_some_iff] at h
  case sub | mul | div | power => exact hp h
  case mod => exact hp h.1
  all_goals
    repeat' split at h
    all_goals first | exact hp h | (cases h <;> exact ⟨_, rfl⟩)

/-- An operator fails with none of the errors of types inside its domain. -/
theorem BinaryOp.Fails.isTypeError {op : BinaryOp} {c : Fault.Cause} (h : op.Fails c) : c.isTypeError = false := by
  cases op
  case «match» =>
    obtain ⟨_, rfl⟩ := h
    rfl
  all_goals first | exact h.elim | (cases h; rfl)

/-- On operands in its domain, an operator other than the power gives a value of the result type. -/
theorem BinaryOp.lands {op : BinaryOp} {l r : Value} {t u w : Ty} (hop : op ≠ .power) (hl : l.HasType t)
    (hr : r.HasType u) (h : op.result? t u = some w) (cache : Pattern.Cache) :
    Lands (op.apply l r cache).1 (·.HasType w) := by
  obtain ⟨k, rfl⟩ := BinaryOp.result?_scalar hl.tySolid hr.tySolid h
  obtain rfl := hl.type
  obtain rfl := hr.type
  have hland : op.landing l r (Ty.scalar k) = Ty.scalar k := by
    cases op <;> first | rfl | exact absurd rfl hop
  have hy := BinaryOp.yields hl.solid.isNull hr.solid.isNull h cache
  rw [hland] at hy
  exact hy.mono (fun _ hv => hv.hasType) fun _ => BinaryOp.Fails.isTypeError

theorem UnaryOp.lands {op : UnaryOp} {v : Value} {t w : Ty} (hv : v.HasType t) (h : op.result? t = some w) :
    Lands (op.apply v) (·.HasType w) := by
  obtain rfl := hv.type
  obtain ⟨u, hu, hw⟩ := UnaryOp.apply_of_domain hv.solid.isNull h
  obtain ⟨k, rfl⟩ : ∃ k, w = Ty.scalar k := by
    have ht := hv.tySolid
    cases op <;> simp only [UnaryOp.result?, Option.ite_none_right_eq_some, Option.some.injEq] at h <;>
      obtain ⟨hd, rfl⟩ := h
    case negate | plus =>
      rcases ht.number (by simpa [ht.isUntyped] using hd) with h | h | h <;> exact ⟨_, h⟩
    case not => exact ⟨_, rfl⟩
    case bitNot =>
      simp only [ht.isUntyped, Bool.false_or, Bool.or_eq_true] at hd
      rcases hd with hd | hd <;> exact ⟨_, ht.eq_scalar hd (by decide)⟩
  rw [hu]
  exact hw.hasType

end Crunch
