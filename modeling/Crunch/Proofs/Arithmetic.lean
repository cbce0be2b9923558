import Crunch.Proofs.Encode
import Mathlib.Data.Int.ModEq

/-!
# Crunch.Proofs.Arithmetic

Operators on integers, which wrap around at 64 bits.

* `div_mul_add_mod`: a quotient and a remainder make up the dividend, also where the quotient wraps around.
* `Run.GivesWrapped`: a computation gives the one integer that is congruent to a number modulo `2 ^ 64`.
* `Run.binary_sum` and the like: what each operator is on two integers.
* `BinaryOp.dividesByZero`, `Run.binary_integers`: the operands on which an operator has no result.
* `Run.integers_wrap`: the operators against the exact results.
-/

namespace Crunch

variable {a b m n : Int64}

/-! ## Integers as numbers modulo `2 ^ 64` -/

theorem bmod_modEq (z : Int) : z.bmod (2 ^ 64) ≡ z [ZMOD 2 ^ 64] := Int.bmod_emod

theorem toInt_add_modEq : (a + b).toInt ≡ a.toInt + b.toInt [ZMOD 2 ^ 64] := Int64.toInt_add a b ▸ bmod_modEq _

theorem toInt_sub_modEq : (a - b).toInt ≡ a.toInt - b.toInt [ZMOD 2 ^ 64] := Int64.toInt_sub a b ▸ bmod_modEq _

theorem toInt_mul_modEq : (a * b).toInt ≡ a.toInt * b.toInt [ZMOD 2 ^ 64] := Int64.toInt_mul a b ▸ bmod_modEq _

theorem toInt_neg_modEq : (-a).toInt ≡ -a.toInt [ZMOD 2 ^ 64] := Int64.toInt_neg a ▸ bmod_modEq _

theorem toInt_div_modEq : (a / b).toInt ≡ a.toInt.tdiv b.toInt [ZMOD 2 ^ 64] := Int64.toInt_div a b ▸ bmod_modEq _

/-- Congruent integers are one and the same. -/
theorem eq_of_toInt_modEq (h : m.toInt ≡ n.toInt [ZMOD 2 ^ 64]) : m = n := by
  have hm := m.toInt_lt
  have hm' := m.le_toInt
  have hn := n.toInt_lt
  have hn' := n.le_toInt
  unfold Int.ModEq at h
  exact Int64.toInt_inj.mp (by omega)

/-- A quotient is exact but for the one that is too large. -/
theorem toInt_div_eq :
    (a / b).toInt = if a = Int64.minValue ∧ b = -1 then Int64.minValue.toInt else a.toInt.tdiv b.toInt := by
  split
  · rename_i h
    rw [h.1, h.2, Int64.minValue_div_neg_one]
  · rename_i h
    by_cases ha : a = Int64.minValue
    · exact Int64.toInt_div_of_ne_right a b fun hb => h ⟨ha, hb⟩
    · exact Int64.toInt_div_of_ne_left a b ha

theorem toInt_mod_lt (hb : b ≠ 0) : |(a % b).toInt| < |b.toInt| := by
  have hpos : 0 < b.toInt.natAbs := Int.natAbs_pos.mpr fun h => hb (Int64.toInt_inj.mp h)
  rw [Int64.toInt_mod, Int.abs_eq_natAbs, Int.abs_eq_natAbs, Int.natAbs_tmod]
  exact Int.ofNat_lt.mpr (Nat.mod_lt _ hpos)

theorem sign_toInt_mod : a % b = 0 ∨ (a % b).toInt.sign = a.toInt.sign := by
  have hsign := Int.sign_tmod a.toInt b.toInt
  rw [← Int64.toInt_mod] at hsign
  split at hsign
  · exact .inl (Int64.toInt_inj.mp (Int.sign_eq_zero_iff_zero.mp hsign))
  · exact .inr hsign

/-- Where the quotient wraps around, its product with the divisor wraps back. -/
theorem div_mul_add_mod : a / b * b + a % b = a := by
  refine eq_of_toInt_modEq ?_
  calc (a / b * b + a % b).toInt
      ≡ (a / b * b).toInt + (a % b).toInt [ZMOD 2 ^ 64] := toInt_add_modEq
    _ ≡ (a / b).toInt * b.toInt + (a % b).toInt [ZMOD 2 ^ 64] := toInt_mul_modEq.add_right _
    _ ≡ a.toInt.tdiv b.toInt * b.toInt + a.toInt.tmod b.toInt [ZMOD 2 ^ 64] := by
        rw [Int64.toInt_mod]
        exact (toInt_div_modEq.mul_right _).add_right _
    _ = a.toInt := by rw [Int.mul_comm, Int.mul_tdiv_add_tmod]

/-! ## Operators on two integers -/

/-- Whether an operator on two integers comes to a division by zero. -/
def BinaryOp.dividesByZero : BinaryOp → Int64 → Int64 → Bool
  | .div, _, b | .mod, _, b => b == 0
  | .power, a, b => a == 0 && b.toInt < 0
  | _, _, _ => false

namespace Run

/-- A computation gives the one integer that is congruent to a number. -/
def GivesWrapped (x : Run Value) (z : Int) : Prop :=
  ∃ n : Int64, x = pure (.integer n) ∧ ∀ m : Int64, m = n ↔ m.toInt ≡ z [ZMOD 2 ^ 64]

theorem givesWrapped {x : Run Value} {z : Int} (hx : x = pure (.integer n)) (hn : n.toInt ≡ z [ZMOD 2 ^ 64]) :
    GivesWrapped x z := by
  refine ⟨n, hx, fun m => ⟨?_, fun hm => ?_⟩⟩
  · rintro rfl
    exact hn
  · exact eq_of_toInt_modEq (hm.trans hn.symm)

theorem pure_ne_fail {line : Nat} {v : Value} {c : Fault.Cause} : (pure v : Run Value) ≠ fail line c := by
  intro h
  have hstate := congrFun h (State.fresh .bundled ⟨[], 0, []⟩ [] ⟨[], []⟩)
  cases hstate

variable {line : Nat}

/-- A computation that gives a value but where a condition holds fails exactly there. -/
theorem eq_fail_iff {x : Run Value} {c : Fault.Cause} {p : Prop} (hfail : p → x = fail line c)
    (hpure : ¬p → ∃ v, x = pure v) : x = fail line c ↔ p := by
  constructor
  · intro h
    by_contra hp
    obtain ⟨v, hv⟩ := hpure hp
    exact pure_ne_fail (hv.symm.trans h)
  · exact hfail

theorem fail_or_value {x : Run Value} {c : Fault.Cause} {p : Bool} (hfail : p = true → x = fail line c)
    (hpure : p = false → ∃ v, x = pure v) : if p then x = fail line c else ∃ v, x = pure v := by
  cases p with
  | true => exact hfail rfl
  | false => exact hpure rfl

theorem binary_sum (a b : Int64) : binary line .add (.integer a) (.integer b) = pure (.integer (a + b)) := rfl

theorem binary_difference (a b : Int64) : binary line .sub (.integer a) (.integer b) = pure (.integer (a - b)) := rfl

theorem binary_product (a b : Int64) : binary line .mul (.integer a) (.integer b) = pure (.integer (a * b)) := rfl

theorem binary_quotient (hb : b ≠ 0) : binary line .div (.integer a) (.integer b) = pure (.integer (a / b)) := by
  change lift line ((Operation.integers .div a b).map Value.integer) = _
  rw [Operation.integers, if_neg hb]
  rfl

theorem binary_remainder (hb : b ≠ 0) : binary line .mod (.integer a) (.integer b) = pure (.integer (a % b)) := by
  change lift line ((Operation.integers .mod a b).map Value.integer) = _
  rw [Operation.integers, if_neg hb]
  rfl

/-- The sign of the exponent tells the kind of the power. -/
theorem power_integers (a b : Int64) : Operation.power (.integer a) (.integer b) =
    if 0 ≤ b.toInt then .ok (.integer (Operation.integerPower a b.toInt.toNat))
    else if a = 0 then .error .divideByZero
    else .ok (.numeric (a.toFloat.pow b.toFloat)) := rfl

theorem binary_power (a b : Int64) :
    binary line .power (.integer a) (.integer b) = lift line (Operation.power (.integer a) (.integer b)) := rfl

theorem binary_power_of_nonneg (hb : 0 ≤ b.toInt) :
    binary line .power (.integer a) (.integer b) = pure (.integer (Operation.integerPower a b.toInt.toNat)) := by
  rw [binary_power, power_integers, if_pos hb]
  rfl

theorem binary_power_of_neg (hb : b.toInt < 0) (ha : a ≠ 0) :
    binary line .power (.integer a) (.integer b) = pure (.numeric (a.toFloat.pow b.toFloat)) := by
  rw [binary_power, power_integers, if_neg (Int.not_le.mpr hb), if_neg ha]
  rfl

theorem binary_power_zero (hb : b.toInt < 0) :
    binary line .power (.integer 0) (.integer b) = fail line .divideByZero := by
  rw [binary_power, power_integers, if_neg (Int.not_le.mpr hb), if_pos rfl]
  rfl

theorem binary_undefined {op : BinaryOp} {l r : Value} (h : op.result? l.type r.type = none) :
    binary line op l r = fail line (.undefined (.binary op l.type r.type)) := by
  funext s
  change lift line (op.apply l r s.patterns).1 { s with patterns := (op.apply l r s.patterns).2 } = _
  rw [BinaryOp.apply, h]
  rfl

/-- An operator on two integers gives a value, or it divides by zero, or integers are outside its domain. -/
theorem binary_integers (op : BinaryOp) (a b : Int64) :
    match op.result? Ty.integer Ty.integer with
    | none => binary line op (.integer a) (.integer b) = fail line (.undefined (.binary op Ty.integer Ty.integer))
    | some _ =>
      if op.dividesByZero a b then binary line op (.integer a) (.integer b) = fail line .divideByZero
      else ∃ v, binary line op (.integer a) (.integer b) = pure v := by
  cases op with
  | div =>
    refine fail_or_value (p := b == 0) (fun h => ?_) fun h => ⟨_, binary_quotient (beq_eq_false_iff_ne.mp h)⟩
    rw [beq_iff_eq.mp h]
    rfl
  | mod =>
    refine fail_or_value (p := b == 0) (fun h => ?_) fun h => ⟨_, binary_remainder (beq_eq_false_iff_ne.mp h)⟩
    rw [beq_iff_eq.mp h]
    rfl
  | power =>
    refine fail_or_value (p := a == 0 && b.toInt < 0) (fun h => ?_) fun h => ?_
    · obtain ⟨rfl, hb⟩ : a = 0 ∧ b.toInt < 0 := by simpa using h
      exact binary_power_zero hb
    · by_cases hb : b.toInt < 0
      · exact ⟨_, binary_power_of_neg hb (by simpa [hb] using h)⟩
      · exact ⟨_, binary_power_of_nonneg (Int.not_lt.mp hb)⟩
  | and | or | xor | «match» => exact binary_undefined rfl
  | _ => exact ⟨_, rfl⟩

/-- Operators on integers, against the exact results. -/
structure IntegersWrap (line : Nat) : Prop where
  add (a b : Int64) : GivesWrapped (binary line .add (.integer a) (.integer b)) (a.toInt + b.toInt)
  sub (a b : Int64) : GivesWrapped (binary line .sub (.integer a) (.integer b)) (a.toInt - b.toInt)
  mul (a b : Int64) : GivesWrapped (binary line .mul (.integer a) (.integer b)) (a.toInt * b.toInt)
  negate (a : Int64) : GivesWrapped (lift line (UnaryOp.negate.apply (.integer a))) (-a.toInt)
  div_fails_iff (a b : Int64) : binary line .div (.integer a) (.integer b) = fail line .divideByZero ↔ b = 0
  mod_fails_iff (a b : Int64) : binary line .mod (.integer a) (.integer b) = fail line .divideByZero ↔ b = 0
  /-- A quotient is rounded toward zero. Only the least integer divided by minus one is too large, and stays. -/
  quotient (a b : Int64) : b ≠ 0 → ∃ q : Int64,
    binary line .div (.integer a) (.integer b) = pure (.integer q) ∧
      q.toInt = if a = Int64.minValue ∧ b = -1 then Int64.minValue.toInt else a.toInt.tdiv b.toInt
  /-- A remainder is smaller than the divisor and has the sign of the dividend. -/
  remainder (a b : Int64) : b ≠ 0 → ∃ r : Int64,
    binary line .mod (.integer a) (.integer b) = pure (.integer r) ∧ |r.toInt| < |b.toInt| ∧
      (r = 0 ∨ r.toInt.sign = a.toInt.sign)
  /-- Put together by the operators themselves, quotient and remainder give the dividend. -/
  division (a b : Int64) : b ≠ 0 →
    (do
      let q ← binary line .div (.integer a) (.integer b)
      let p ← binary line .mul q (.integer b)
      let r ← binary line .mod (.integer a) (.integer b)
      binary line .add p r) = pure (.integer a)
  /-- Every operator ends on all integers, and these are the only ones that it fails on. -/
  ends (op : BinaryOp) (a b : Int64) :
    match op.result? Ty.integer Ty.integer with
    | none => binary line op (.integer a) (.integer b) = fail line (.undefined (.binary op Ty.integer Ty.integer))
    | some _ =>
      if op.dividesByZero a b then binary line op (.integer a) (.integer b) = fail line .divideByZero
      else ∃ v, binary line op (.integer a) (.integer b) = pure v
  unary_ends (op : UnaryOp) (a : Int64) :
    match op.result? Ty.integer with
    | none => op.apply (.integer a) = .error (.undefined (.unary op Ty.integer))
    | some _ => ∃ n, op.apply (.integer a) = .ok (.integer n)

theorem integers_wrap (line : Nat) : IntegersWrap line where
  add a b := givesWrapped (binary_sum a b) toInt_add_modEq
  sub a b := givesWrapped (binary_difference a b) toInt_sub_modEq
  mul a b := givesWrapped (binary_product a b) toInt_mul_modEq
  negate a := givesWrapped rfl toInt_neg_modEq
  div_fails_iff a b := eq_fail_iff (by rintro rfl; rfl) fun hb => ⟨_, binary_quotient hb⟩
  mod_fails_iff a b := eq_fail_iff (by rintro rfl; rfl) fun hb => ⟨_, binary_remainder hb⟩
  quotient a b hb := ⟨a / b, binary_quotient hb, toInt_div_eq⟩
  remainder a b hb := ⟨a % b, binary_remainder hb, toInt_mod_lt hb, sign_toInt_mod⟩
  division a b hb := by
    rw [binary_quotient hb, pure_bind, binary_product, pure_bind, binary_remainder hb, pure_bind, binary_sum,
      div_mul_add_mod]
  ends := binary_integers
  unary_ends op a := by
    cases op with
    | not => rfl
    | _ => exact ⟨_, rfl⟩

/-- The one quotient that is too large. -/
example (line : Nat) :
    binary line .div (.integer Int64.minValue) (.integer (-1)) = pure (.integer Int64.minValue) := rfl

end Run
end Crunch
