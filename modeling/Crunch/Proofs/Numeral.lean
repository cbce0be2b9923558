import Crunch.Proofs.Encode
import Crunch.Proofs.Spelling

/-!
# Crunch.Proofs.Numeral

Integers as texts, and back.

* `Numeral.value`: the number that digits of a base denote. `Decimal.valueOf_eq` and `Scan.hexValueOf_eq` tell that
  this is what is read off decimal and hexadecimal digits.
* `Scan.tokenize_token`, `Scan.tokenize_bad`: texts that are one token, or none.
* `Decimal.int64?_integerText`: the decimal text of an integer is read as the integer.
* `Text.trim_padded`: blanks around a text without blanks are trimmed, and nothing else is.
* `Builtin.integers_read_back`: printed integers and runs of digits, read by functions and as tokens.
-/

namespace Crunch

/-! ## Digits of a base -/

namespace Numeral

/-- The digits of a base up to sixteen, by their values. -/
def alphabet (base : Nat) : List Char :=
  ['0', '1', '2', '3', '4', '5', '6', '7', '8', '9', 'a', 'b', 'c', 'd', 'e', 'f'].take base

/-- The number that digits of a base denote, the last digit being the lowest. -/
def value (base : Nat) (cs : List Char) : Nat := Nat.ofDigits base (cs.reverse.map (alphabet base).idxOf)

variable {base : Nat} {cs : List Char}

theorem value_append_singleton (cs : List Char) (c : Char) :
    value base (cs ++ [c]) = base * value base cs + (alphabet base).idxOf c := by
  rw [value, List.reverse_append, List.reverse_singleton, List.singleton_append, List.map_cons, Nat.ofDigits_cons,
    Nat.add_comm]
  rfl

theorem value_cons (c : Char) (cs : List Char) :
    value base (c :: cs) = base ^ cs.length * (alphabet base).idxOf c + value base cs := by
  rw [value, List.reverse_cons, List.map_append, List.map_singleton, Nat.ofDigits_append, Nat.ofDigits_singleton,
    List.length_map, List.length_reverse, Nat.add_comm]
  rfl

/-- Digits that are read from the left, each by its value, give the number that they denote. -/
theorem foldl_eq_value {f : Char → Nat} (h : ∀ c ∈ cs, f c = (alphabet base).idxOf c) :
    cs.foldl (fun n c => base * n + f c) 0 = value base cs := by
  induction cs using List.reverseRecOn with
  | nil => rfl
  | append_singleton cs c ih =>
    obtain ⟨hcs, hc⟩ := List.forall_mem_append.mp h
    rw [List.foldl_append, ih hcs, value_append_singleton, List.foldl_cons, List.foldl_nil,
      hc c (List.mem_singleton_self c)]

theorem isDigit_of_mem : ∀ c ∈ alphabet 10, Decimal.isDigit c = true := List.all_eq_true.mp rfl

theorem valueOf_eq (h : ∀ c ∈ cs, c ∈ alphabet 10) : Decimal.valueOf cs = value 10 cs := by
  refine foldl_eq_value fun c hc => ?_
  have hmem := h c hc
  fin_cases hmem <;> rfl

theorem isHexDigit_of_mem : ∀ c ∈ alphabet 16, Scan.isHexDigit c = true := List.all_eq_true.mp rfl

theorem hexValueOf_eq (h : ∀ c ∈ cs, c ∈ alphabet 16) : Scan.hexValueOf cs = value 16 cs := by
  refine foldl_eq_value fun c hc => ?_
  have hmem := h c hc
  fin_cases hmem <;> rfl

end Numeral

/-! ## Texts of one token -/

namespace Scan

variable {c : Char} {cs : List Char}

theorem clear_nil : Clear [] := nofun

theorem tokenize_token {t : Token} (h : scan c cs = (.token t, cs.length)) :
    tokenize (String.ofList (c :: cs)) = .ok [(t, 1)] := by
  have hpasses : Passes 1 (c :: cs) [(t, 1)] (1 + lineEnds (c :: cs)) [] := by
    refine .token h ?_
    rw [List.take_length, List.drop_length]
    exact .refl
  rw [tokenize, String.toList_ofList, tokensFrom_of_passes hpasses, tokensFrom_nil]
  rfl

theorem tokenize_bad (h : scan c cs = (.bad, cs.length)) :
    tokenize (String.ofList (c :: cs)) = .error ⟨1, .unexpected (.piece (String.ofList (c :: cs)))⟩ := by
  rw [tokenize, String.toList_ofList, tokensFrom.eq_def]
  simp only [h, List.take_length]

/-- Decimal digits are the integer that they denote, if it is one, and else no token. -/
theorem tokenize_decimal {ds : List Char} (hne : ds ≠ []) (hds : ∀ d ∈ ds, d ∈ Numeral.alphabet 10) :
    tokenize (String.ofList ds) = match Decimal.fit? (Numeral.value 10 ds) with
      | some n => .ok [(.integer n, 1)]
      | none => .error ⟨1, .unexpected (.piece (String.ofList ds))⟩ := by
  obtain ⟨c, cs, rfl⟩ := List.exists_cons_of_ne_nil hne
  have hscan := scan_decimal (fun d hd => Numeral.isDigit_of_mem d (hds d hd)) clear_nil
  rw [List.append_nil, Numeral.valueOf_eq hds] at hscan
  cases hfit : Decimal.fit? (Numeral.value 10 (c :: cs)) with
  | some n =>
    rw [hfit] at hscan
    exact tokenize_token hscan
  | none =>
    rw [hfit] at hscan
    exact tokenize_bad hscan

end Scan

/-! ## Decimal texts -/

namespace Decimal

variable {ds : List Char}

theorem fit?_of_le {n : Nat} (h : (n : Int) ≤ maxInt) : ∃ m : Int64, m.toInt = n ∧ fit? n = some m := by
  have hmax : maxInt = 2 ^ 63 - 1 := rfl
  have hmin : minInt = -2 ^ 63 := rfl
  refine ⟨Int64.ofInt n, Int64.toInt_ofInt_of_le (by omega) (by omega), if_pos ?_⟩
  omega

theorem fit?_of_lt {n : Nat} (h : maxInt < n) : fit? n = none := if_neg (by omega)

theorem toList_integerText (n : Int64) :
    (integerText n).toList = (if n.toInt < 0 then ['-'] else []) ++ Nat.toDigits 10 n.toInt.natAbs := by
  rw [integerText, Int.toString_eq_repr, Int.repr_eq_if]
  split
  · rename_i h
    rw [Nat.toList_repr, if_neg (Int.not_lt.mpr h), List.nil_append, show n.toInt.toNat = n.toInt.natAbs by omega]
  · rename_i h
    rw [String.toList_append, Nat.toList_repr, if_pos (Int.not_le.mp h),
      show (-n.toInt).toNat = n.toInt.natAbs by omega]
    rfl

theorem isDigit_of_mem_toDigits (n : Nat) : ∀ d ∈ Nat.toDigits 10 n, isDigit d = true := Scan.isDigit_decimal 0 n

theorem natural?_toDigits (n : Nat) : natural? (Nat.toDigits 10 n) = some n := by
  have hall : (Nat.toDigits 10 n).all isDigit = true := List.all_eq_true.mpr (isDigit_of_mem_toDigits n)
  rw [natural?, if_pos ⟨Nat.toDigits_ne_nil, hall⟩, Scan.valueOf_toDigits]

theorem splitSign_digits (h : ∀ d ∈ ds, isDigit d = true) : splitSign ds = (false, ds) := by
  unfold splitSign
  split
  · exact absurd (h '-' List.mem_cons_self) (by decide)
  · exact absurd (h '+' List.mem_cons_self) (by decide)
  · rfl

/-- The decimal text of an integer is read as the integer. -/
theorem int64?_integerText (n : Int64) : int64? (integerText n).toList = some n := by
  rw [toList_integerText]
  by_cases h : n.toInt < 0
  · have hn : -(n.toInt.natAbs : Int) = n.toInt := by omega
    simp only [int64?, if_pos h, List.singleton_append, splitSign, natural?_toDigits, if_true, hn, Scan.fit?_toInt]
  · have hn : (n.toInt.natAbs : Int) = n.toInt := by omega
    simp only [int64?, if_neg h, List.nil_append, splitSign_digits (isDigit_of_mem_toDigits _), natural?_toDigits,
      Bool.false_eq_true, if_false, hn, Scan.fit?_toInt]

/-- The least integer, whose magnitude is none. -/
example : int64? "-9223372036854775808".toList = some Int64.minValue := rfl

theorem isBlank_of_mem_integerText (n : Int64) : ∀ c ∈ (integerText n).toList, Text.isBlank c = false := by
  have hsign : ∀ c ∈ (if n.toInt < 0 then ['-'] else []), Text.isBlank c = false := by
    split
    · exact List.forall_mem_singleton.mpr rfl
    · exact List.forall_mem_nil _
  rw [toList_integerText]
  refine List.forall_mem_append.mpr ⟨hsign, fun c hc => ?_⟩
  have hdigit := Scan.isDigit_iff.mp (isDigit_of_mem_toDigits _ c hc)
  simp [Text.isBlank, Text.inRanges]
  omega

end Decimal

/-- Blanks around a text without blanks are trimmed. -/
theorem Text.trim_padded {before cs after : List Char} (hbefore : ∀ c ∈ before, isBlank c = true)
    (hcs : ∀ c ∈ cs, isBlank c = false) (hafter : ∀ c ∈ after, isBlank c = true) :
    trim (before ++ cs ++ after) = cs := by
  have hkeep {d : Char} {ds : List Char} (hd : isBlank d = false) : (d :: ds).dropWhile isBlank = d :: ds :=
    List.dropWhile_cons_of_neg (Bool.eq_false_iff.mp hd)
  have hleft : trimLeft (before ++ cs ++ after) = trimLeft (cs ++ after) := by
    rw [trimLeft, List.append_assoc, List.dropWhile_append_of_pos hbefore]
    rfl
  have hright : trimRight (cs ++ after) = cs := by
    rw [trimRight, List.reverse_append, List.dropWhile_append_of_pos fun c hc => hafter c (List.mem_reverse.mp hc)]
    cases hds : cs.reverse with
    | nil => rw [List.reverse_eq_nil_iff.mp hds]; rfl
    | cons d ds =>
      have hd : d ∈ cs.reverse := hds ▸ List.mem_cons_self
      rw [hkeep (hcs d (List.mem_reverse.mp hd)), ← hds, List.reverse_reverse]
  rw [trim, hleft]
  cases cs with
  | nil =>
    have hnone : after.dropWhile isBlank = [] := List.dropWhile_eq_nil_iff.mpr hafter
    rw [List.nil_append, trimLeft, hnone]
    rfl
  | cons c cs =>
    have hsame : trimLeft (c :: cs ++ after) = c :: cs ++ after := hkeep (hcs c List.mem_cons_self)
    rw [hsame, hright]

/-! ## Reading back -/

/-- The text of an integer that is not negative is the token of the integer. -/
theorem Scan.tokenize_integerText {n : Int64} (hn : 0 ≤ n.toInt) :
    tokenize (integerText n) = .ok [(.integer n, 1)] := by
  have htext : integerText n = String.ofList (Nat.toDigits 10 n.toInt.toNat) := by
    rw [← String.ofList_toList (s := integerText n), Decimal.toList_integerText, if_neg (Int.not_lt.mpr hn),
      List.nil_append, show n.toInt.natAbs = n.toInt.toNat by omega]
  obtain ⟨c, cs, hds, hreads⟩ := reads_decimal hn 0
  rw [List.replicate_zero, List.nil_append] at hds
  have hscan := hreads.scan Scan.clear_nil
  rw [List.append_nil] at hscan
  rw [htext, hds, tokenize_token hscan]

namespace Builtin

variable {line : Nat}

theorem on_str_integer (n : Int64) : str.on line [.integer n] = pure (.literal (integerText n)) := rfl

theorem on_trim (s : String) : trim.on line [.literal s] = pure (.literal (String.ofList (Text.trim s.toList))) := rfl

theorem on_int {s : String} {n : Int64} (h : Text.trim s.toList = (integerText n).toList) :
    int.on line [.literal s] = pure (.integer n) := by
  have hcall : int.on line [.literal s] = Run.lift line (Library.toInteger (.literal s)) := rfl
  rw [hcall, Library.toInteger, h, Decimal.int64?_integerText]
  rfl

theorem trim_padded_integerText {before after : List Char} (n : Int64)
    (hbefore : ∀ c ∈ before, Text.isBlank c = true) (hafter : ∀ c ∈ after, Text.isBlank c = true) :
    Text.trim (String.ofList before ++ integerText n ++ String.ofList after).toList = (integerText n).toList := by
  simp only [String.toList_append, String.toList_ofList]
  exact Text.trim_padded hbefore (Decimal.isBlank_of_mem_integerText n) hafter

/-- Integers against their texts. -/
structure IntegersReadBack (line : Nat) : Prop where
  int_str (n : Int64) : (do let s ← str.on line [.integer n]; int.on line [s]) = pure (.integer n)
  /-- Whatever is trimmed to the text of an integer is read as the integer. -/
  int_trimmed (n : Int64) (s : String) :
    trim.on line [.literal s] = str.on line [.integer n] → int.on line [.literal s] = pure (.integer n)
  /-- Any blanks around the text are trimmed. -/
  int_padded (n : Int64) (before after : List Char) :
    (∀ c ∈ before, Text.isBlank c = true) → (∀ c ∈ after, Text.isBlank c = true) →
    let padded := String.ofList before ++ integerText n ++ String.ofList after
    trim.on line [.literal padded] = str.on line [.integer n] ∧ int.on line [.literal padded] = pure (.integer n)
  tokenize_text (n : Int64) : 0 ≤ n.toInt → tokenize (Value.integer n).text = .ok [(.integer n, 1)]
  /-- Digits, however many and with any zeros in front, are the integer that they denote, or no token at all. -/
  tokenize_digits (ds : List Char) : ds ≠ [] → (∀ d ∈ ds, d ∈ Numeral.alphabet 10) →
    if (Numeral.value 10 ds : Int) ≤ Int64.maxValue.toInt then
      ∃ n : Int64, n.toInt = Numeral.value 10 ds ∧ tokenize (String.ofList ds) = .ok [(.integer n, 1)]
    else tokenize (String.ofList ds) = .error ⟨1, .unexpected (.piece (String.ofList ds))⟩

theorem integers_read_back (line : Nat) : IntegersReadBack line where
  int_str n := by
    have htrim := trim_padded_integerText n (List.forall_mem_nil _) (List.forall_mem_nil _)
    rw [on_str_integer, pure_bind]
    exact on_int (by simpa using htrim)
  int_trimmed n s h := by
    rw [on_trim, on_str_integer, pure_inj] at h
    refine on_int ?_
    rw [← Value.literal.inj h, String.toList_ofList]
  int_padded n before after hbefore hafter := by
    have htrim := trim_padded_integerText n hbefore hafter
    refine ⟨?_, on_int htrim⟩
    rw [on_trim, on_str_integer, htrim, String.ofList_toList]
  tokenize_text n hn := Scan.tokenize_integerText hn
  tokenize_digits ds hne hds := by
    have htokens := Scan.tokenize_decimal hne hds
    split
    · rename_i hle
      obtain ⟨n, hn, hfit⟩ := Decimal.fit?_of_le hle
      rw [hfit] at htokens
      exact ⟨n, hn, htokens⟩
    · rename_i hlt
      rwa [Decimal.fit?_of_lt (Int.not_le.mp hlt)] at htokens

end Builtin
end Crunch
