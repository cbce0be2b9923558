import Crunch.Count
import Mathlib.Algebra.Group.Int.Defs
import Mathlib.Algebra.Group.Nat.Defs

/-!
# Crunch.Proofs.Count

Lengths as integers of a script.

* `toInt_lengthOf`, `lengthOf_of_le`: the integer is the length, unless no integer is so large.
-/

namespace Crunch

theorem toInt_lengthOf (n : Nat) : (lengthOf n).toInt = min (n : Int) Decimal.maxInt := by
  have hmax : Decimal.maxInt = 2 ^ 63 - 1 := rfl
  have hn : 0 ≤ (n : Int) := Int.natCast_nonneg n
  refine Int64.toInt_ofInt_of_le ?_ ?_
  · omega
  · omega

theorem lengthOf_of_le {n : Nat} (h : (n : Int) ≤ Decimal.maxInt) : lengthOf n = Int64.ofNat n := by
  rw [lengthOf, Int.min_eq_left h, Int64.ofInt_eq_ofNat]

theorem lengthOf_of_lt {n : Nat} (h : n < 2 ^ 32) : lengthOf n = Int64.ofNat n := by
  have hmax : Decimal.maxInt = 2 ^ 63 - 1 := rfl
  exact lengthOf_of_le (by omega)

end Crunch
