import Crunch.Proofs.Reading

/-!
# Crunch.Proofs.Concat

Sums that start with a text.

* `Operation.appended`: bytes with a value after them.
* `Operation.concat_literal`, `Operation.concat_tabchar`: what a text and a value make, nulls included.
* `Run.texts_concatenate`: this together, and that texts are concatenated in any grouping.
-/

namespace Crunch

namespace Operation

/-- Bytes with a value after them. These are other bytes or the encoding of a literal; a null of one of the two types
or without a type makes a null of bytes. -/
def appended (bytes : List UInt8) (r : Value) : Except Fault.Cause Value :=
  match r with
  | .tabchar more => .ok (.tabchar (bytes ++ more))
  | .literal s => .ok (.tabchar (bytes ++ Utf8.encode s))
  | .null t =>
    if t.isOrUntyped .tabchar || t.isScalar .literal then .ok (.null Ty.tabchar)
    else .error (.undefined (.binary .add Ty.tabchar t))
  | v => .error (.undefined (.binary .add Ty.tabchar v.type))

/-- Anything may follow a literal. -/
theorem concat_literal (s : String) (r : Value) :
    concat (.literal s) r = .ok (if r.isNull then .null Ty.literal else .literal (s ++ r.text)) := by
  have hresult : BinaryOp.add.result? (Value.literal s).type r.type = some Ty.literal := rfl
  unfold concat
  rw [hresult]
  cases r with
  | null t => rfl
  | _ => rfl

/-- A type other than those of texts, of bytes and of untyped values has no sum with the type of bytes. -/
theorem result?_tabchar_add (t : Ty) :
    BinaryOp.add.result? Ty.tabchar t =
      if t.isOrUntyped .tabchar || t.isScalar .literal then some Ty.tabchar else none := by
  simp only [BinaryOp.result?]
  split
  · rename_i h
    rw [if_pos (Bool.and_eq_true_iff.mp h).2]
  · rename_i h
    have hother : (t.isOrUntyped .tabchar || t.isScalar .literal) = false := Bool.eq_false_iff.mpr h
    obtain ⟨hbytes, hliteral⟩ := Bool.or_eq_false_iff.mp hother
    have huntyped : t.isUntyped = false := (Bool.or_eq_false_iff.mp hbytes).1
    rw [hother, hliteral]
    simp only [Ty.promote?, huntyped]
    rfl

theorem concat_tabchar (bytes : List UInt8) (r : Value) : concat (.tabchar bytes) r = appended bytes r := by
  have hresult : BinaryOp.add.result? (Value.tabchar bytes).type r.type = _ := result?_tabchar_add r.type
  unfold concat
  rw [hresult]
  cases r with
  | null t =>
    by_cases hfits : (t.isOrUntyped .tabchar || t.isScalar .literal) = true
    · simp only [Value.type, appended, hfits, if_true]
      rfl
    · simp only [Value.type, appended, hfits]
      rfl
  | collection e items =>
    have hlevel : (e.arrayOf.isOrUntyped .tabchar || e.arrayOf.isScalar .literal) = false := by
      simp [Ty.isOrUntyped, Ty.isScalar]
    simp only [Value.type, hlevel, Bool.false_eq_true, if_false]
    rfl
  | _ => rfl

end Operation

namespace Run

variable {line : Nat}

theorem binary_literals (line : Nat) (a b : String) :
    binary line .add (.literal a) (.literal b) = pure (.literal (a ++ b)) := by
  rw [binary_add (.inl ⟨a, rfl⟩), Operation.concat_literal]
  rfl

theorem binary_tabchars (line : Nat) (a b : List UInt8) :
    binary line .add (.tabchar a) (.tabchar b) = pure (.tabchar (a ++ b)) := by
  rw [binary_add (.inr ⟨a, rfl⟩), Operation.concat_tabchar]
  rfl

/-- A text in place is joined with any value as the operator does it, and an operator on a text in place is none of
its own. Texts are concatenated in any grouping, and so are bytes. -/
theorem texts_concatenate (line : Nat) :
    (∀ (s : String) (r : Value) (cache : Pattern.Cache),
      BinaryOp.add.apply (.literal s) r cache = (Operation.concat (.literal s) r, cache) ∧
        Operation.concat (.literal s) r = .ok (if r.isNull then .null Ty.literal else .literal (s ++ r.text))) ∧
    (∀ (bytes : List UInt8) (r : Value) (cache : Pattern.Cache),
      BinaryOp.add.apply (.tabchar bytes) r cache = (Operation.concat (.tabchar bytes) r, cache) ∧
        Operation.concat (.tabchar bytes) r = Operation.appended bytes r) ∧
    (∀ (op : BinaryOp) (o p : Operand),
      combine line op o p = (do
        let a ← o.read line
        let b ← p.read line
        counted [o, p] (← binary line op a b))) ∧
    (∀ a b c : String,
      (do let ab ← binary line .add (.literal a) (.literal b)
          binary line .add ab (.literal c)) = (pure (.literal (a ++ b ++ c)) : Run Value) ∧
        (do let bc ← binary line .add (.literal b) (.literal c)
            binary line .add (.literal a) bc) = (pure (.literal (a ++ b ++ c)) : Run Value)) ∧
    ∀ a b c : List UInt8,
      (do let ab ← binary line .add (.tabchar a) (.tabchar b)
          binary line .add ab (.tabchar c)) = (pure (.tabchar (a ++ b ++ c)) : Run Value) ∧
        (do let bc ← binary line .add (.tabchar b) (.tabchar c)
            binary line .add (.tabchar a) bc) = (pure (.tabchar (a ++ b ++ c)) : Run Value) := by
  refine ⟨fun s r cache => ⟨BinaryOp.apply_add (.inl ⟨s, rfl⟩) r cache, Operation.concat_literal s r⟩,
    fun bytes r cache => ⟨BinaryOp.apply_add (.inr ⟨bytes, rfl⟩) r cache, Operation.concat_tabchar bytes r⟩,
    combine_eq line, fun a b c => ⟨?_, ?_⟩, fun a b c => ⟨?_, ?_⟩⟩
  · rw [binary_literals, pure_bind, binary_literals]
  · rw [binary_literals, pure_bind, binary_literals, String.append_assoc]
  · rw [binary_tabchars, pure_bind, binary_tabchars]
  · rw [binary_tabchars, pure_bind, binary_tabchars, List.append_assoc]

end Run
end Crunch
