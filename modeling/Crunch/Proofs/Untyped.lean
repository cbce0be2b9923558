import Crunch.Check
import Crunch.Proofs.Ty

/-!
# Crunch.Proofs.Untyped

Operands whose type is only known when the script runs.

* `BinaryOp.domain_comm`: the domain of an operator other than the sum does not depend on the order of operands.
* `BinaryOp.domain_untyped`: such an operator takes an untyped operand in place of any one that it takes.
* `BinaryOp.add_untyped_right`, `BinaryOp.add_untyped_left`: what a sum takes beside an untyped operand.
* `untyped_operand_exactly`: when an untyped operand may stand for one that is taken.
-/

namespace Crunch

namespace Ty

variable {a b t : Ty}

theorem promote?_isSome :
    (promote? a b).isSome = ((a.isUntyped || a.isNumber) && (b.isUntyped || b.isNumber)) := by
  unfold promote?
  cases a.isUntyped <;> cases b.isUntyped <;> cases a.isNumber <;> cases b.isNumber <;> rfl

/-- The kind of the common type of two numbers does not depend on their order. -/
theorem promote?_kind_comm : (promote? a b).map kind = (promote? b a).map kind := by
  have hrank : a.isNumber = true → b.isNumber = true →
      (if b.kind.rank ≤ a.kind.rank then a.kind else b.kind) =
        if a.kind.rank ≤ b.kind.rank then b.kind else a.kind := by
    intro ha hb
    have hka := (isNumber_iff.mp ha).2
    have hkb := (isNumber_iff.mp hb).2
    cases ha : a.kind <;> cases hb : b.kind <;> simp_all [Kind.isNumber, Kind.rank]
  unfold promote?
  cases a.isUntyped <;> cases b.isUntyped <;> cases ha : a.isNumber <;> cases hb : b.isNumber
  all_goals first | rfl | exact congrArg some (hrank ha hb)

theorem promote?_untyped_right (a : Ty) :
    promote? a untyped = if a.isUntyped then some untyped else if a.isNumber then some a else none := by
  have hu : untyped.isUntyped = true := rfl
  unfold promote?
  rw [hu]
  cases a.isUntyped <;> rfl

/-- Beside an untyped operand, a number is promoted to no higher kind than beside another number. -/
theorem promote?_untyped (h : promote? a b = some t) :
    ∃ u, promote? a untyped = some u ∧ (u.kind = .imaginary → t.kind = .imaginary) := by
  rw [promote?_untyped_right]
  unfold promote? at h
  cases hua : a.isUntyped with
  | true => exact ⟨untyped, rfl, nofun⟩
  | false =>
    rw [hua] at h
    cases hub : b.isUntyped with
    | true =>
      rw [hub] at h
      obtain ⟨hna, ht⟩ := Option.ite_none_right_eq_some.mp h
      obtain rfl := Option.some.inj ht
      exact ⟨a, by simp [hna], id⟩
    | false =>
      rw [hub] at h
      obtain ⟨hn, ht⟩ := Option.ite_none_right_eq_some.mp h
      obtain rfl := Option.some.inj ht
      obtain ⟨hna, -⟩ := Bool.and_eq_true_iff.mp hn
      refine ⟨a, by simp [hna], fun hk => ?_⟩
      have hle : b.kind.rank ≤ a.kind.rank := by
        rw [hk]
        cases b.kind <;> decide
      exact (if_pos hle).trans hk

/-- Whether a sum takes this on the right of an untyped operand: an untyped one, a number or a literal. -/
def isAddend (t : Ty) : Bool := t.isUntyped || t.isNumber || t.isScalar .literal

theorem equatable_comm (a b : Ty) : equatable a b = equatable b a := by
  unfold equatable
  rw [Bool.or_comm a.isUntyped, Bool.and_comm a.isNumber, Bool.and_comm (a.accepts b)]

theorem orderable_comm (a b : Ty) : orderable a b = orderable b a := by
  unfold orderable
  rw [Bool.and_comm a.isOrdered, Bool.or_comm a.isUntyped, Bool.beq_comm (a := a.kind),
    Bool.and_comm (decide (a.kind.rank > 0))]

theorem equatable_untyped (a : Ty) : equatable a untyped = true := by
  have hu : untyped.isUntyped = true := rfl
  simp only [equatable, hu, Bool.or_true, Bool.true_or]

theorem orderable_untyped (a : Ty) : orderable a untyped = a.isOrdered := by
  have hu : untyped.isUntyped = true := rfl
  have ho : untyped.isOrdered = true := rfl
  simp only [orderable, hu, ho, Bool.or_true, Bool.true_or, Bool.and_true]

end Ty

namespace BinaryOp

open Ty

variable {op : BinaryOp} {a b : Ty}

/-- The remainder depends on the kind of the common type only. -/
theorem mod_isSome : (mod.result? a b).isSome = ((promote? a b).map kind).any (· ≠ .imaginary) := by
  simp only [result?, Option.isSome_filter, Option.any_map]

/-- Both operands are integers, or both are booleans. -/
theorem bits_isSome (hop : op = .bitAnd ∨ op = .bitOr ∨ op = .bitXor) : (op.result? a b).isSome =
    (a.isOrUntyped .integer && b.isOrUntyped .integer || a.isOrUntyped .boolean && b.isOrUntyped .boolean) := by
  have hresult : op.result? a b = bitAnd.result? a b := by rcases hop with rfl | rfl | rfl <;> rfl
  rw [hresult]
  simp only [result?]
  split
  · rename_i hu
    obtain ⟨ha, hb⟩ := Bool.and_eq_true_iff.mp hu
    simp [isOrUntyped, ha, hb]
  · split
    · rename_i hi
      rw [hi]
      rfl
    · rename_i hi
      rw [Bool.eq_false_iff.mpr hi, Bool.false_or, Bool.eq_iff_iff, Option.isSome_ite]

/-- The domain of an operator other than the sum does not depend on the order of the operands. -/
theorem domain_comm (hop : op ≠ .add) (a b : Ty) : (op.result? a b).isSome = (op.result? b a).isSome := by
  cases op with
  | add => exact absurd rfl hop
  | mod => rw [mod_isSome, mod_isSome, promote?_kind_comm]
  | sub | mul | div | power => simp only [result?, promote?_isSome, Bool.and_comm]
  | equal | notEqual => simp only [result?, equatable_comm a b]
  | less | lessEqual | greater | greaterEqual => simp only [result?, orderable_comm a b]
  | and | or | xor | shiftLeft | shiftRight | «match» | bitAnd | bitOr | bitXor => simp only [result?, Bool.and_comm]

/-- An operator other than the sum takes an untyped operand in place of any one that it takes. -/
theorem domain_untyped (hop : op ≠ .add) (h : (op.result? a b).isSome = true) :
    (op.result? a untyped).isSome = true := by
  have huntyped : ∀ k, untyped.isOrUntyped k = true := fun _ => rfl
  cases op with
  | add => exact absurd rfl hop
  | sub | mul | div | power =>
    obtain ⟨t, ht⟩ := Option.isSome_iff_exists.mp h
    obtain ⟨u, hu, -⟩ := promote?_untyped ht
    exact Option.isSome_iff_exists.mpr ⟨u, hu⟩
  | mod =>
    obtain ⟨t, ht⟩ := Option.isSome_iff_exists.mp h
    obtain ⟨ht, hreal⟩ := Option.filter_eq_some_iff.mp ht
    obtain ⟨u, hu, hkind⟩ := promote?_untyped ht
    refine Option.isSome_iff_exists.mpr ⟨u, Option.filter_eq_some_iff.mpr ⟨hu, ?_⟩⟩
    exact decide_eq_true fun hk => of_decide_eq_true hreal (hkind hk)
  | equal | notEqual => simp only [result?, equatable_untyped, if_true, Option.isSome_some]
  | less | lessEqual | greater | greaterEqual =>
    simp only [result?, Option.isSome_ite, orderable_untyped] at h ⊢
    simp only [orderable, Bool.and_eq_true] at h
    exact h.1.1
  | and | or | xor | shiftLeft | shiftRight | «match» =>
    simp only [result?, Option.isSome_ite, Bool.and_eq_true] at h ⊢
    exact ⟨h.1, huntyped _⟩
  | bitAnd | bitOr | bitXor =>
    rw [bits_isSome (by simp)] at h ⊢
    simp only [huntyped, Bool.and_true, Bool.or_eq_true]
    exact (Bool.or_eq_true_iff.mp h).imp (fun hi => (Bool.and_eq_true_iff.mp hi).1)
      fun hb => (Bool.and_eq_true_iff.mp hb).1

/-- Beside an untyped operand on the right, a sum takes bytes as well. -/
theorem add_untyped_right (a : Ty) : (add.result? a untyped).isSome = (a.isAddend || a.isScalar .tabchar) := by
  have hb : untyped.isOrUntyped .tabchar = true := rfl
  have hl : untyped.isScalar .literal = false := rfl
  have hu : untyped.isUntyped = true := rfl
  simp only [result?, isAddend, hb, hl, Bool.and_true, Bool.or_false]
  cases a.isScalar .tabchar <;> cases a.isScalar .literal <;> simp [promote?_isSome, hu]

theorem add_untyped_left (b : Ty) : (add.result? untyped b).isSome = b.isAddend := by
  have hb : untyped.isScalar .tabchar = false := rfl
  have hl : untyped.isScalar .literal = false := rfl
  have hu : untyped.isUntyped = true := rfl
  simp only [result?, isAddend, hb, hl, Bool.false_and, Bool.false_or, Bool.false_eq_true, if_false]
  cases b.isScalar .literal <;> simp [promote?_isSome, hu]

end BinaryOp

open Ty in
/-- What an operator takes beside some operand, it takes beside an untyped one, and an untyped one in its place. Only
a sum does so just for some operands. -/
theorem untyped_operand_exactly (op : BinaryOp) (sign : UnaryOp) (a b : Ty) :
    ((op.result? a b).isSome = true →
      ((op.result? a untyped).isSome = true ↔ op = .add → (a.isAddend || a.isScalar .tabchar) = true) ∧
      ((op.result? untyped b).isSome = true ↔ op = .add → b.isAddend = true)) ∧
    ((sign.result? a).isSome = true → (sign.result? untyped).isSome = true) := by
  refine ⟨fun h => ?_, fun _ => ?_⟩
  · by_cases hop : op = .add
    · subst hop
      rw [BinaryOp.add_untyped_right, BinaryOp.add_untyped_left]
      exact ⟨⟨fun h _ => h, fun h => h rfl⟩, ⟨fun h _ => h, fun h => h rfl⟩⟩
    · have hleft : (op.result? untyped b).isSome = true := by
        rw [BinaryOp.domain_comm hop] at h ⊢
        exact BinaryOp.domain_untyped hop h
      exact ⟨iff_of_true (BinaryOp.domain_untyped hop h) fun he => absurd he hop,
        iff_of_true hleft fun he => absurd he hop⟩
  · cases sign <;> rfl

open Ty in
/-- A literal is taken beside a byte array, and so is an untyped operand on the right of a literal, but not on the
left of the bytes; a remainder takes one on both sides. -/
theorem untyped_operand_exactly_bytes :
    (BinaryOp.add.result? literal tabchar).isSome = true ∧ (BinaryOp.add.result? literal untyped).isSome = true ∧
      ¬(BinaryOp.add.result? untyped tabchar).isSome = true ∧ (BinaryOp.mod.result? integer numeric).isSome = true ∧
      (BinaryOp.mod.result? untyped numeric).isSome = true ∧ (UnaryOp.negate.result? untyped).isSome = true := by
  have hsum : (BinaryOp.add.result? literal tabchar).isSome = true := rfl
  have hmod : (BinaryOp.mod.result? integer numeric).isSome = true := rfl
  have hminus : (UnaryOp.negate.result? integer).isSome = true := rfl
  obtain ⟨hright, hleft⟩ := (untyped_operand_exactly .add .negate literal tabchar).1 hsum
  obtain ⟨hremainder, hsign⟩ := untyped_operand_exactly .mod .negate integer numeric
  refine ⟨hsum, hright.mpr fun _ => rfl, fun h => ?_, hmod, (hremainder hmod).2.mpr nofun, hsign hminus⟩
  exact absurd (hleft.mp h rfl) (by decide)

open Ty in
/-- A literal and a boolean make a sum, but an element of an empty collection, whose type is not known before the
script runs, and a boolean are rejected. -/
theorem untyped_sum_strays :
    BinaryOp.add.result? literal boolean = some literal ∧ BinaryOp.add.result? untyped boolean = none ∧
      ∀ env, (Expr.binary 1 .add (.index 1 (.collection 1 []) (.constant 1 (.integer 0)))
        (.constant 1 (.boolean true))).typeIn env = .error ⟨1, .misuse (.binary .add untyped boolean)⟩ :=
  ⟨rfl, rfl, fun _ => rfl⟩

end Crunch
