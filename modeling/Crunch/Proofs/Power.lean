import Crunch.Proofs.Arithmetic
import Mathlib.Tactic.Ring

/-!
# Crunch.Proofs.Power

Powers of integers, which wrap around at 64 bits.

* `Operation.toInt_squarings`: the squarings give the power, times what has been gathered, modulo `2 ^ 64`.
* `Operation.integerPower_add`: a power to a sum is a product of powers.
* `Run.powers_wrap`: the operator and the function against the exact powers.
-/

namespace Crunch

namespace Operation

/-- What the squarings keep is `acc * b ^ e`. The last square is one that no bit uses any more. -/
theorem toInt_squarings (acc b : Int64) (e : Nat) :
    (squarings acc b e).toInt ≡ acc.toInt * b.toInt ^ e [ZMOD 2 ^ 64] := by
  induction acc, b, e using squarings.induct with
  | case1 acc b =>
    rw [squarings, if_pos rfl, pow_zero, mul_one]
  | case2 acc b e he ih =>
    rw [squarings, if_neg he]
    have hsquare : (b * b).toInt ^ (e / 2) ≡ (b.toInt * b.toInt) ^ (e / 2) [ZMOD 2 ^ 64] := toInt_mul_modEq.pow _
    split at ih
    · rename_i hodd
      rw [if_pos hodd]
      calc (squarings (acc * b) (b * b) (e / 2)).toInt
          ≡ (acc * b).toInt * (b * b).toInt ^ (e / 2) [ZMOD 2 ^ 64] := ih
        _ ≡ acc.toInt * b.toInt * (b.toInt * b.toInt) ^ (e / 2) [ZMOD 2 ^ 64] := toInt_mul_modEq.mul hsquare
        _ = acc.toInt * b.toInt ^ (2 * (e / 2) + 1) := by ring
        _ = acc.toInt * b.toInt ^ e := by rw [show 2 * (e / 2) + 1 = e by omega]
    · rename_i heven
      rw [if_neg heven]
      calc (squarings acc (b * b) (e / 2)).toInt
          ≡ acc.toInt * (b * b).toInt ^ (e / 2) [ZMOD 2 ^ 64] := ih
        _ ≡ acc.toInt * (b.toInt * b.toInt) ^ (e / 2) [ZMOD 2 ^ 64] := hsquare.mul_left _
        _ = acc.toInt * b.toInt ^ (2 * (e / 2)) := by ring
        _ = acc.toInt * b.toInt ^ e := by rw [show 2 * (e / 2) = e by omega]

theorem toInt_integerPower (b : Int64) (e : Nat) : (integerPower b e).toInt ≡ b.toInt ^ e [ZMOD 2 ^ 64] := by
  have h := toInt_squarings 1 b e
  rwa [Int64.toInt_one, one_mul] at h

/-- The first power of three that wraps around. -/
example : integerPower 3 40 = -6289078614652622815 := by cbv

theorem integerPower_add (b : Int64) (d e : Nat) : integerPower b (d + e) = integerPower b d * integerPower b e := by
  refine eq_of_toInt_modEq ?_
  calc (integerPower b (d + e)).toInt
      ≡ b.toInt ^ (d + e) [ZMOD 2 ^ 64] := toInt_integerPower b (d + e)
    _ = b.toInt ^ d * b.toInt ^ e := pow_add _ d e
    _ ≡ (integerPower b d).toInt * (integerPower b e).toInt [ZMOD 2 ^ 64] :=
        ((toInt_integerPower b d).mul (toInt_integerPower b e)).symm
    _ ≡ (integerPower b d * integerPower b e).toInt [ZMOD 2 ^ 64] := toInt_mul_modEq.symm

end Operation

namespace Run

/-- Powers of integers, against the exact ones. -/
structure PowersWrap (line : Nat) : Prop where
  exact (b e : Int64) : 0 ≤ e.toInt →
    GivesWrapped (binary line .power (.integer b) (.integer e)) (b.toInt ^ e.toInt.toNat)
  /-- The function is the operator. -/
  function (b e : Int64) :
    Builtin.pow.on line [.integer b, .integer e] = binary line .power (.integer b) (.integer e)
  /-- A power to a sum of exponents, where the sum does not wrap around, is a product of powers. -/
  sum (b d e : Int64) : 0 ≤ d.toInt → 0 ≤ e.toInt → d.toInt + e.toInt < 2 ^ 63 →
    (do
      let n ← binary line .add (.integer d) (.integer e)
      binary line .power (.integer b) n) =
    do
      let x ← binary line .power (.integer b) (.integer d)
      let y ← binary line .power (.integer b) (.integer e)
      binary line .mul x y
  negative_fails_iff (b e : Int64) : e.toInt < 0 →
    (binary line .power (.integer b) (.integer e) = fail line .divideByZero ↔ b = 0)
  negative (b e : Int64) : e.toInt < 0 → b ≠ 0 →
    ∃ x, binary line .power (.integer b) (.integer e) = pure (.numeric x)

theorem powers_wrap (line : Nat) : PowersWrap line where
  exact b e he := givesWrapped (binary_power_of_nonneg he) (Operation.toInt_integerPower b _)
  function b e := rfl
  sum b d e hd he h := by
    have hsum : (d + e).toInt = d.toInt + e.toInt := by
      rw [Int64.toInt_add]
      exact Int.bmod_eq_of_le (by omega) (by omega)
    have hnonneg : 0 ≤ (d + e).toInt := by omega
    have hexponent : (d + e).toInt.toNat = d.toInt.toNat + e.toInt.toNat := by omega
    rw [binary_sum, pure_bind, binary_power_of_nonneg hnonneg, binary_power_of_nonneg hd, pure_bind,
      binary_power_of_nonneg he, pure_bind, binary_product, hexponent, Operation.integerPower_add]
  negative_fails_iff b e he :=
    eq_fail_iff (by rintro rfl; exact binary_power_zero he) fun hb => ⟨_, binary_power_of_neg he hb⟩
  negative b e he hb := ⟨_, binary_power_of_neg he hb⟩

end Run
end Crunch
