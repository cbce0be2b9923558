import Crunch.Pattern.Bundled
import Crunch.Proofs.Numeral
import Mathlib.Algebra.BigOperators.Fin

/-!
# Crunch.Proofs.Hash

The hash of texts and bytes as a number.

* `Digest.polynomial`: the value at 33 of the polynomial whose coefficients are the start value and
  the bytes.
* `Digest.toNat_djb2`: the hash is this number modulo `2 ^ 64`.
* `Library.hash_of_pos`: its remainder is an integer below the bound, so nothing is cut off.
* `Builtin.hash_is_remainder`: calls of the function, which fail only for a bound that is not positive.
-/

namespace Crunch

/-! ## The hash as a number -/

namespace Digest

/-- Bytes as the coefficients of a polynomial at 33, the last byte being the lowest one. -/
def weights (bytes : List UInt8) : Nat := ∑ i : Fin bytes.length, bytes[i].toNat * 33 ^ (bytes.length - (i + 1))

/-- The start value and the bytes as the coefficients of a polynomial at 33. -/
def polynomial (bytes : List UInt8) : Nat := 5381 * 33 ^ bytes.length + weights bytes

theorem weights_cons (b : UInt8) (bytes : List UInt8) :
    weights (b :: bytes) = b.toNat * 33 ^ bytes.length + weights bytes := by
  simp only [weights, List.length_cons, Fin.sum_univ_succ]
  congr 1
  refine Finset.sum_congr rfl fun i _ => ?_
  simp

/-- What one step makes of a word, as if nothing wrapped around. -/
theorem toNat_step (h : UInt64) (b : UInt8) :
    (h * 33 + b.toUInt64).toNat ≡ h.toNat * 33 + b.toNat [MOD 2 ^ 64] := by
  rw [UInt64.toNat_add, UInt64.toNat_mul, UInt8.toNat_toUInt64]
  exact (Nat.mod_modEq _ _).trans ((Nat.mod_modEq _ _).add_right _)

/-- Bytes hashed on from any word: what wraps around at each step wraps around once in the end. -/
theorem toNat_foldl (bytes : List UInt8) (h : UInt64) :
    (bytes.foldl (fun h b => h * 33 + b.toUInt64) h).toNat ≡
      h.toNat * 33 ^ bytes.length + weights bytes [MOD 2 ^ 64] := by
  induction bytes generalizing h with
  | nil => simp [weights, Nat.ModEq]
  | cons b bytes ih =>
    calc ((b :: bytes).foldl (fun h b => h * 33 + b.toUInt64) h).toNat
        ≡ (h * 33 + b.toUInt64).toNat * 33 ^ bytes.length + weights bytes [MOD 2 ^ 64] := ih _
      _ ≡ (h.toNat * 33 + b.toNat) * 33 ^ bytes.length + weights bytes [MOD 2 ^ 64] :=
          ((toNat_step h b).mul_right _).add_right _
      _ = h.toNat * 33 ^ (b :: bytes).length + weights (b :: bytes) := by
          rw [weights_cons, List.length_cons, pow_succ]
          ring

theorem toNat_djb2 (bytes : List UInt8) : (djb2 bytes).toNat = polynomial bytes % 2 ^ 64 := by
  have h := toNat_foldl bytes djb2Seed
  rwa [Nat.ModEq, Nat.mod_eq_of_lt (UInt64.toNat_lt _)] at h

end Digest

/-! ## Its remainder -/

namespace Library

variable {v : Value} {bytes : List UInt8} {m : Int64}

/-- The remainder by a positive integer is an integer itself, so the conversion never falls back on
the largest one. -/
theorem fit?_remainder (h : Nat) (hm : 0 < m.toInt) :
    ∃ n : Int64, Decimal.fit? (h % m.toInt.toNat : Nat) = some n ∧ n.toInt = h % m.toInt ∧
      0 ≤ n.toInt ∧ n.toInt < m.toInt := by
  have hmax : m.toInt ≤ Decimal.maxInt := Int.le_of_lt_add_one m.toInt_lt
  have hcast : ((h % m.toInt.toNat : Nat) : Int) = h % m.toInt := by
    rw [Int.natCast_emod, Int.toNat_of_nonneg (Int.le_of_lt hm)]
  have hlt : (h : Int) % m.toInt < m.toInt := Int.emod_lt_of_pos _ hm
  obtain ⟨n, hn, hfit⟩ := Decimal.fit?_of_le (n := h % m.toInt.toNat) (by omega)
  rw [hcast] at hn
  exact ⟨n, hfit, hn, hn ▸ Int.emod_nonneg _ (by omega), hn ▸ hlt⟩

theorem hash_of_pos (hv : bytesOf v = .ok bytes) (hm : 0 < m.toInt) :
    ∃ n : Int64, hash v (some (.integer m)) = .ok (.integer n) ∧
      n.toInt = (Digest.polynomial bytes % 2 ^ 64 : Nat) % m.toInt ∧ 0 ≤ n.toInt ∧ n.toInt < m.toInt ∧
      Decimal.fit? ((Digest.djb2 bytes).toNat % m.toInt.toNat : Nat) = some n := by
  obtain ⟨n, hfit, hn, hrange⟩ := fit?_remainder (Digest.djb2 bytes).toNat hm
  rw [Digest.toNat_djb2] at hn
  refine ⟨n, ?_, hn, hrange.1, hrange.2, hfit⟩
  simp only [hash, hv, Value.integer?, bind, Except.bind, if_pos hm, hfit]
  rfl

theorem hash_of_nonpos (hv : bytesOf v = .ok bytes) (hm : m.toInt ≤ 0) :
    hash v (some (.integer m)) = .error (.outOfRange (.hashSize m)) := by
  simp only [hash, hv, Value.integer?, bind, Except.bind, if_neg (Int.not_lt.mpr hm)]

end Library

/-! ## Calls -/

theorem Run.fail_ne_pure {α : Type} {line : Nat} {c : Fault.Cause} {a : α} : (Run.fail line c : Run α) ≠ pure a := by
  intro h
  cases congrFun h (State.fresh .bundled ⟨[], 0, []⟩ [] ⟨[], []⟩)

namespace Builtin

/-- Texts and byte arrays are hashed, and no argument of theirs is a null. -/
theorem on_hash_bound (line : Nat) {v : Value} {bytes : List UInt8} (hv : Library.bytesOf v = .ok bytes) (m : Int64) :
    hash.on line [v, .integer m] = Run.lift line (Library.hash v (some (.integer m))) := by
  cases v with
  | literal s => rfl
  | tabchar x => rfl
  | _ => cases hv

/-- The hash of bytes is the number that they and the start value denote at 33, modulo `2 ^ 64`. A call
with a text or a byte array and a bound fails exactly if the bound is not positive. Otherwise it gives
the remainder of the hash by the bound, which is an integer. -/
theorem hash_is_remainder (bytes : List UInt8) :
    (Digest.djb2 bytes).toNat = Digest.polynomial bytes % 2 ^ 64 ∧
    ∀ (line : Nat) (v : Value) (m : Int64), (∃ s, v = .literal s ∧ Utf8.encode s = bytes) ∨ v = .tabchar bytes →
      (hash.on line [v, .integer m] = Run.fail line (.outOfRange (.hashSize m)) ↔ m.toInt ≤ 0) ∧
      (0 < m.toInt → ∃ n : Int64,
        hash.on line [v, .integer m] = pure (.integer n) ∧
        n.toInt = (Digest.polynomial bytes % 2 ^ 64 : Nat) % m.toInt ∧ 0 ≤ n.toInt ∧ n.toInt < m.toInt ∧
        Decimal.fit? ((Digest.djb2 bytes).toNat % m.toInt.toNat : Nat) = some n) := by
  refine ⟨Digest.toNat_djb2 bytes, fun line v m hv => ?_⟩
  have hbytes : Library.bytesOf v = .ok bytes := by
    rcases hv with ⟨s, rfl, rfl⟩ | rfl <;> rfl
  rw [on_hash_bound line hbytes]
  refine ⟨⟨fun hfail => ?_, fun hm => ?_⟩, fun hm => ?_⟩
  · by_contra hm
    obtain ⟨n, hn, -⟩ := Library.hash_of_pos hbytes (Int.not_le.mp hm)
    rw [hn] at hfail
    exact Run.fail_ne_pure hfail.symm
  · rw [Library.hash_of_nonpos hbytes hm]
    rfl
  · obtain ⟨n, hn, hrest⟩ := Library.hash_of_pos hbytes hm
    refine ⟨n, ?_, hrest⟩
    rw [hn]
    rfl

/-- The hash of a text of eleven bytes wraps around. -/
theorem hash_is_remainder_wrapped :
    2 ^ 64 ≤ Digest.polynomial (Utf8.encode "hello world") ∧
    hash.on 1 [.literal "hello world", .integer 1000] = pure (.integer 697) ∧
    hash.on 1 [.literal "hello world", .integer 0] = Run.fail 1 (.outOfRange (.hashSize 0)) := by
  obtain ⟨-, h⟩ := hash_is_remainder (Utf8.encode "hello world")
  have hv : (∃ s, Value.literal "hello world" = .literal s ∧ Utf8.encode s = Utf8.encode "hello world") ∨
      Value.literal "hello world" = .tabchar (Utf8.encode "hello world") := .inl ⟨_, rfl, rfl⟩
  have hfails := (h 1 _ 0 hv).1.mpr (by decide)
  obtain ⟨n, hgives, hn, -⟩ := (h 1 _ 1000 hv).2 (by decide)
  have hvalue : n = 697 := Int64.toInt_inj.mp (hn.trans (by decide +kernel))
  refine ⟨by decide +kernel, ?_, hfails⟩
  rw [hgives, hvalue]

end Builtin
end Crunch
