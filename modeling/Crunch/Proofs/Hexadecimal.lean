import Crunch.Proofs.Numeral

/-!
# Crunch.Proofs.Hexadecimal

The bits of an integer in base sixteen.

* `Digest.nibblesFrom_eq`: the digits that are shown are the lowest nibbles, as many as the width or the bits need.
* `Digest.value_nibblesFrom`, `Digest.length_nibblesFrom`: what the lowest nibbles denote, and how many digits they are.
* `Digest.HexText`, `Builtin.hex_reads_back`: the text of an integer, and the integer that is read off it.
-/

namespace Crunch

open Numeral

namespace Digest

variable {bits width k : Nat}

/-! ## The lowest nibbles -/

theorem nibblesFrom_true (bits width k : Nat) :
    nibblesFrom bits width (k + 1) true = Nat.digitChar (bits / 16 ^ k % 16) :: nibblesFrom bits width k true := by
  simp [nibblesFrom]

/-- Output starts at a nibble that is no zero, or that the width asks for. -/
theorem nibblesFrom_false (bits width k : Nat) :
    nibblesFrom bits width (k + 1) false =
      if bits / 16 ^ k % 16 ≠ 0 ∨ k + 1 ≤ width then nibblesFrom bits width (k + 1) true
      else nibblesFrom bits width k false := by
  have hseen : (bits / 16 ^ k % 16 != 0 || decide (k + 1 ≤ width)) =
      decide (bits / 16 ^ k % 16 ≠ 0 ∨ k + 1 ≤ width) := Bool.eq_iff_iff.mpr (by simp)
  simp only [nibblesFrom, Nat.pow_eq, Bool.false_or, Bool.true_or, hseen, if_true]
  split
  · rename_i h
    rw [if_pos (of_decide_eq_true h), h]
  · rename_i h
    rw [if_neg fun h' => h (decide_eq_true h'), Bool.eq_false_iff.mpr h]

theorem length_nibblesFrom (bits width k : Nat) : (nibblesFrom bits width k true).length = k := by
  induction k with
  | zero => rfl
  | succ k ih => rw [nibblesFrom_true, List.length_cons, ih]

theorem digitChar_mem : ∀ d < 16, Nat.digitChar d ∈ alphabet 16 := by decide

theorem idxOf_digitChar : ∀ d < 16, (alphabet 16).idxOf (Nat.digitChar d) = d := by decide

theorem mem_nibblesFrom (bits width k : Nat) : ∀ c ∈ nibblesFrom bits width k true, c ∈ alphabet 16 := by
  induction k with
  | zero => exact List.forall_mem_nil _
  | succ k ih =>
    rw [nibblesFrom_true]
    exact List.forall_mem_cons.mpr ⟨digitChar_mem _ (Nat.mod_lt _ (by decide)), ih⟩

theorem value_nibblesFrom (bits width k : Nat) : value 16 (nibblesFrom bits width k true) = bits % 16 ^ k := by
  induction k with
  | zero => rw [pow_zero, Nat.mod_one]; rfl
  | succ k ih =>
    rw [nibblesFrom_true, value_cons, length_nibblesFrom, idxOf_digitChar _ (Nat.mod_lt _ (by decide)), ih,
      Nat.mod_pow_succ, Nat.add_comm]

/-- The highest digit of a number is no zero. -/
theorem head?_nibblesFrom (hlow : 16 ^ k ≤ bits) (hhigh : bits < 16 ^ (k + 1)) :
    (nibblesFrom bits width (k + 1) true).head? ≠ some '0' := by
  have hpos : 0 < bits / 16 ^ k := Nat.div_pos hlow (Nat.pow_pos (by decide))
  have hlt : bits / 16 ^ k < 16 := Nat.div_lt_of_lt_mul (by rwa [← pow_succ])
  have hdigit : ∀ d < 16, 0 < d → Nat.digitChar d ≠ '0' := by decide
  rw [nibblesFrom_true, List.head?_cons, Nat.mod_eq_of_lt hlt, ne_eq, Option.some.injEq]
  exact hdigit _ hlt hpos

/-- By induction on the nibbles that are left: as long as none is shown, the higher ones are zeros. -/
theorem nibblesFrom_eq (bits width k : Nat) :
    nibblesFrom bits width k false =
      nibblesFrom bits width (max (min k width) (Nat.digits 16 (bits % 16 ^ k)).length) true := by
  induction k with
  | zero => simp [Nat.mod_one, nibblesFrom]
  | succ k ih =>
    rw [nibblesFrom_false]
    split
    · rename_i hshown
      have hle : (Nat.digits 16 (bits % 16 ^ (k + 1))).length ≤ k + 1 :=
        (Nat.digits_length_le_iff (by decide) _).mpr (Nat.mod_lt _ (Nat.pow_pos (by decide)))
      have hreach : k + 1 ≤ width ∨ k + 1 ≤ (Nat.digits 16 (bits % 16 ^ (k + 1))).length := by
        rcases hshown with hnibble | hwidth
        · refine .inr ((Nat.lt_digits_length_iff (by decide) _).mpr ?_)
          rw [Nat.mod_pow_succ]
          exact Nat.le_add_left_of_le (Nat.le_mul_of_pos_right _ (Nat.pos_of_ne_zero hnibble))
        · exact .inl hwidth
      congr 1
      omega
    · rename_i hskipped
      obtain ⟨hnibble, hwidth⟩ := not_or.mp hskipped
      have hsame : bits % 16 ^ (k + 1) = bits % 16 ^ k := by
        rw [Nat.mod_pow_succ, not_not.mp hnibble, Nat.mul_zero, Nat.add_zero]
      rw [ih, hsame]
      congr 1
      omega

/-! ## The text of an integer -/

/-- A width as it counts, from one to sixteen. -/
def clampedWidth (width : Nat) : Nat := max 1 (min width 16)

/-- The number of hexadecimal digits of a number without zeros in front, at least one. -/
def significantDigits (bits : Nat) : Nat := max 1 (Nat.digits 16 bits).length

/-- The two's complement bits. -/
theorem toNat_toUInt64 (n : Int64) : (n.toUInt64.toNat : Int) = n.toInt % 2 ^ 64 := by
  have hsigned : n.toInt = (n.toUInt64.toNat : Int).bmod (2 ^ 64) := BitVec.toInt_eq_toNat_bmod n.toBitVec
  have hresidue := Int.bmod_emod (x := (n.toUInt64.toNat : Int)) (m := 2 ^ 64)
  have hlt := n.toUInt64.toNat_lt
  rw [hsigned]
  omega

theorem hexDigits_eq (n : Int64) (width : Nat) :
    hexDigits n width = nibblesFrom n.toUInt64.toNat (clampedWidth width)
      (max (significantDigits n.toUInt64.toNat) (clampedWidth width)) true := by
  have hbits : n.toUInt64.toNat % 16 ^ 16 = n.toUInt64.toNat := Nat.mod_eq_of_lt n.toUInt64.toNat_lt
  rw [hexDigits, nibblesFrom_eq, maxHexDigits, hbits]
  unfold significantDigits clampedWidth
  congr 1
  omega

/-- A negative integer shows all its bits. -/
example : hexDigits (-2) 0 = "fffffffffffffffe".toList := rfl

theorem mem_hexDigits (n : Int64) (width : Nat) : ∀ c ∈ hexDigits n width, c ∈ alphabet 16 := by
  rw [hexDigits_eq]
  exact mem_nibblesFrom _ _ _

theorem length_hexDigits (n : Int64) (width : Nat) :
    (hexDigits n width).length = max (significantDigits n.toUInt64.toNat) (clampedWidth width) := by
  rw [hexDigits_eq, length_nibblesFrom]

theorem value_hexDigits (n : Int64) (width : Nat) : value 16 (hexDigits n width) = n.toUInt64.toNat := by
  have hfits : n.toUInt64.toNat < 16 ^ max (significantDigits n.toUInt64.toNat) (clampedWidth width) := by
    refine (Nat.digits_length_le_iff (by decide) _).mp ?_
    unfold significantDigits
    omega
  rw [hexDigits_eq, value_nibblesFrom, Nat.mod_eq_of_lt hfits]

/-- Beyond the width, output starts at the highest digit. -/
theorem head?_hexDigits {n : Int64} {width : Nat} (h : clampedWidth width < (hexDigits n width).length) :
    (hexDigits n width).head? ≠ some '0' := by
  rw [length_hexDigits] at h
  have hsignificant : 0 < (Nat.digits 16 n.toUInt64.toNat).length ∧
      max (significantDigits n.toUInt64.toNat) (clampedWidth width) = (Nat.digits 16 n.toUInt64.toNat).length := by
    unfold significantDigits clampedWidth at h ⊢
    omega
  obtain ⟨k, hk⟩ := Nat.exists_eq_add_one.mpr hsignificant.1
  rw [hexDigits_eq, hsignificant.2, hk]
  refine head?_nibblesFrom ?_ ?_
  · exact (Nat.lt_digits_length_iff (by decide) _).mp (by omega)
  · exact (Nat.digits_length_le_iff (by decide) _).mp (by omega)

theorem tokenize_hexDigits {n : Int64} (hn : 0 ≤ n.toInt) (width : Nat) :
    tokenize ("0x" ++ String.ofList (hexDigits n width)) = .ok [(.integer n, 1)] := by
  have hne : hexDigits n width ≠ [] := by
    refine List.ne_nil_of_length_pos ?_
    rw [length_hexDigits]
    unfold clampedWidth
    omega
  have hsame : n.toInt % 2 ^ 64 = n.toInt := Int.emod_eq_of_lt hn (by have := n.toInt_lt; omega)
  have hscan := Scan.scan_hexadecimal (x := 'x') (.inl rfl) hne
    (fun d hd => isHexDigit_of_mem d (mem_hexDigits n width d hd)) Scan.clear_nil
  rw [List.append_nil, hexValueOf_eq (mem_hexDigits n width), value_hexDigits, toNat_toUInt64, hsame,
    Scan.fit?_toInt] at hscan
  have htext : "0x" ++ String.ofList (hexDigits n width) = String.ofList ('0' :: 'x' :: hexDigits n width) :=
    String.toList_inj.mp (by simp)
  rw [htext]
  exact Scan.tokenize_token hscan

/-- The text of an integer in base sixteen, as wide as asked for. -/
structure HexText (n : Int64) (width : Nat) (cs : List Char) : Prop where
  lower : ∀ c ∈ cs, c ∈ alphabet 16
  denotes : (value 16 cs : Int) = n.toInt % 2 ^ 64
  length : cs.length = max (significantDigits (n.toInt % 2 ^ 64).toNat) (clampedWidth width)
  no_leading_zero : clampedWidth width < cs.length → cs.head? ≠ some '0'
  reads_back : 0 ≤ n.toInt → tokenize ("0x" ++ String.ofList cs) = .ok [(.integer n, 1)]

end Digest

namespace Builtin

theorem on_hex {line : Nat} (n w : Int64) :
    hex.on line [.integer n, .integer w] =
      Run.lift line ((count w "hex width").map fun width => .literal (String.ofList (Digest.hexDigits n width))) := by
  have hcall : hex.on line [.integer n, .integer w] =
      Run.lift line (Library.hex (.integer n) (some (.integer w))) := rfl
  rw [hcall]
  simp only [Library.hex, Value.integer?, bind, Except.bind]
  cases count w "hex width" <;> rfl

/-- What scripts get for the bits of an integer. -/
structure HexReadsBack (line : Nat) (n : Int64) : Prop where
  text (width : Nat) : Digest.HexText n width (Digest.hexDigits n width)
  plain : hex.on line [.integer n] = pure (.literal (String.ofList (Digest.hexDigits n 0)))
  padded (w : Int64) : 0 ≤ w.toInt →
    hex.on line [.integer n, .integer w] = pure (.literal (String.ofList (Digest.hexDigits n w.toInt.toNat)))
  negative (w : Int64) : w.toInt < 0 →
    hex.on line [.integer n, .integer w] = Run.fail line (.outOfRange (.negative "hex width" w))

theorem hex_reads_back (line : Nat) (n : Int64) : HexReadsBack line n where
  text width := {
    lower := Digest.mem_hexDigits n width
    denotes := by rw [Digest.value_hexDigits, Digest.toNat_toUInt64]
    length := by rw [Digest.length_hexDigits, ← Digest.toNat_toUInt64, Int.toNat_natCast]
    no_leading_zero := Digest.head?_hexDigits
    reads_back := fun hn => Digest.tokenize_hexDigits hn width }
  plain := rfl
  padded w hw := by
    rw [on_hex, count, if_pos hw]
    rfl
  negative w hw := by
    rw [on_hex, count, if_neg (Int.not_le.mpr hw)]
    rfl

end Builtin
end Crunch
