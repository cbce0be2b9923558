import Crunch.Proofs.Scan
import Mathlib

/-!
# Crunch.Proofs.Spelling

Tokens are read from what they are written as.

* `Token.Spells`: the texts that a token is written as. Integers are decimal or hexadecimal, and strings stand in
  double quotes with the escapes that they need.
* `Scan.scan_mark`, `Scan.scan_word`, `Scan.number_decimal`, `Scan.number_hexadecimal`, `Scan.string_escaped`: what
  is read off the front of a text, where a blank or nothing follows.
* `Token.tokenize_spelled`: tokens that are written with single blanks between them are read again, each on the
  line that it stands on.
-/

namespace Crunch

/-! ## Source forms -/

namespace Token

/-- A character as it is written between double quotes. -/
def escaped (c : Char) : List Char :=
  if c = '\\' then ['\\', '\\'] else if c = '"' then ['\\', '"'] else if c = '\n' then ['\\', 'n'] else [c]

/-- A letter or an underscore, and then letters, digits and underscores. -/
def IsWord (s : String) : Prop :=
  ∃ c cs, s.toList = c :: cs ∧ Scan.isNameStart c = true ∧ ∀ d ∈ cs, Scan.isNameChar d = true

/-- A word that is no keyword and no truth value. -/
structure IsName (s : String) : Prop where
  word : IsWord s
  not_keyword : ∀ k : Keyword, k.spelling ≠ s
  not_bool : ∀ b : Bool, boolText b ≠ s

/-- How tokens are written. An integer may have zeros in front, and a hexadecimal one letters of either case. -/
inductive Spells : Token → List Char → Prop where
  | decimal {n : Int64} (zeros : Nat) : 0 ≤ n.toInt →
      Spells (.integer n) (List.replicate zeros '0' ++ Nat.toDigits 10 n.toInt.toNat)
  | hexadecimal {n : Int64} {x : Char} {ds : List Char} (zeros : Nat) : 0 ≤ n.toInt → x = 'x' ∨ x = 'X' →
      ds.map Char.toLower = Nat.toDigits 16 n.toInt.toNat →
      Spells (.integer n) ('0' :: x :: (List.replicate zeros '0' ++ ds))
  | str (s : String) : Spells (.str s) ('"' :: (s.toList.flatMap escaped ++ ['"']))
  | bool (b : Bool) : Spells (.bool b) (boolText b).toList
  | keyword (k : Keyword) : Spells (.keyword k) k.spelling.toList
  | identifier {s : String} : IsName s → Spells (.identifier s) s.toList
  | mark (m : Mark) : Spells (.mark m) m.spelling.toList
  | newLine : Spells .newLine ['\n']

/-- Whether a token is written at all. Numerics and imaginaries are left out here. -/
def Spelled : Token → Prop
  | .numeric _ | .imaginary _ => False
  | .integer n => 0 ≤ n.toInt
  | .identifier s => IsName s
  | .str _ | .bool _ | .keyword _ | .mark _ | .newLine => True

theorem Spelled.exists_spells {t : Token} (h : t.Spelled) : ∃ cs, t.Spells cs := by
  cases t with
  | numeric x => cases h
  | imaginary x => cases h
  | integer n => exact ⟨_, .decimal 0 h⟩
  | str s => exact ⟨_, .str s⟩
  | bool b => exact ⟨_, .bool b⟩
  | keyword k => exact ⟨_, .keyword k⟩
  | identifier s => exact ⟨_, .identifier h⟩
  | mark m => exact ⟨_, .mark m⟩
  | newLine => exact ⟨_, .newLine⟩

end Token

namespace Scan

open Token

variable {c : Char} {cs ds rest : List Char} {line : Nat}

/-! ## What follows a token -/

/-- A blank or nothing. -/
def Clear (rest : List Char) : Prop := ∀ c ∈ rest.head?, c = ' '

theorem Clear.takeWhile_eq {p : Char → Bool} (h : Clear rest) (hp : p ' ' = false) : rest.takeWhile p = [] := by
  cases rest with
  | nil => rfl
  | cons c rest =>
    rw [h c rfl, List.takeWhile_cons, if_neg (Bool.eq_false_iff.mp hp)]

theorem Clear.takeWhile_append {p : Char → Bool} (h : Clear rest) (hp : p ' ' = false) (hcs : ∀ c ∈ cs, p c = true) :
    (cs ++ rest).takeWhile p = cs := by
  rw [List.takeWhile_append_of_pos hcs, h.takeWhile_eq hp, List.append_nil]

theorem lineEnds_eq_zero {p : Char → Bool} (hp : p '\n' = false) (hcs : ∀ c ∈ cs, p c = true) : lineEnds cs = 0 := by
  refine List.count_eq_zero.mpr fun hmem => ?_
  rw [hcs _ hmem] at hp
  cases hp

/-! ## Classes of characters -/

theorem isDigit_iff : Decimal.isDigit c = true ↔ 48 ≤ c.toNat ∧ c.toNat ≤ 57 := by
  simp only [Decimal.isDigit, Bool.and_eq_true, decide_eq_true_eq, Char.le_def, UInt32.le_iff_toNat_le]
  rfl

theorem isHexDigit_iff : isHexDigit c = true ↔
    48 ≤ c.toNat ∧ c.toNat ≤ 57 ∨ 97 ≤ c.toNat ∧ c.toNat ≤ 102 ∨ 65 ≤ c.toNat ∧ c.toNat ≤ 70 := by
  simp only [isHexDigit, Bool.or_eq_true, isDigit_iff, Bool.and_eq_true, decide_eq_true_eq, Char.le_def,
    UInt32.le_iff_toNat_le, or_assoc]
  rfl

theorem isDigit_eq_false (h : isNameStart c = true) : Decimal.isDigit c = false := by
  refine Bool.eq_false_iff.mpr fun hd => ?_
  rw [isDigit_iff] at hd
  simp only [isNameStart, Char.isAlpha, Char.isUpper, Char.isLower, Bool.or_eq_true, Bool.and_eq_true,
    decide_eq_true_eq, beq_iff_eq, ge_iff_le, UInt32.le_iff_toNat_le] at h
  rcases h with h | rfl
  · change (65 ≤ c.toNat ∧ c.toNat ≤ 90) ∨ (97 ≤ c.toNat ∧ c.toNat ≤ 122) at h
    omega
  · revert hd
    decide

/-! ## Marks and words -/

theorem scan_mark (m : Mark) (h : m.spelling.toList = c :: cs) (hrest : Clear rest) :
    scan c (cs ++ rest) = (.token (.mark m), cs.length) := by
  cases rest with
  | nil => cases m <;> cases h <;> rfl
  | cons d rest =>
    obtain rfl := hrest d rfl
    cases m <;> cases h <;> rfl

theorem scan_word (hc : isNameStart c = true) (hcs : ∀ d ∈ cs, isNameChar d = true) (hrest : Clear rest) :
    scan c (cs ++ rest) = (.token (Token.ofWord (String.ofList (c :: cs))), cs.length) := by
  have hpoint : c ≠ '.' := by
    rintro rfl
    revert hc
    decide
  have hnumber : startsNumber c (cs ++ rest) = false := by
    simp [startsNumber, isDigit_eq_false hc, hpoint]
  unfold scan
  rw [hnumber, if_neg Bool.false_ne_true, if_pos hc, hrest.takeWhile_append rfl hcs]

/-! ## Integers -/

theorem fractionWidth_clear (h : Clear rest) : fractionWidth rest = 0 := by
  cases rest with
  | nil => rfl
  | cons c rest =>
    obtain rfl := h c rfl
    rfl

theorem exponentWidth_clear (h : Clear rest) : exponentWidth rest = 0 := by
  cases rest with
  | nil => rfl
  | cons c rest =>
    obtain rfl := h c rfl
    rfl

theorem decimalNumber_of_digits (hds : ∀ d ∈ ds, Decimal.isDigit d = true) (hrest : Clear rest) :
    decimalNumber (ds ++ rest) = (orBad ((Decimal.fit? (Decimal.valueOf ds)).map .integer), ds.length) := by
  unfold decimalNumber
  simp only [hrest.takeWhile_append rfl hds, List.drop_left, fractionWidth_clear hrest, Nat.add_zero,
    exponentWidth_clear hrest, List.take_left]
  split
  · cases hrest _ rfl
  · rfl

/-- Without an `x` as the second character a number is no hexadecimal one. -/
theorem number_eq_decimalNumber (h : ∀ x ∈ cs.head?, x ≠ 'x' ∧ x ≠ 'X') :
    number (c :: cs) = decimalNumber (c :: cs) := by
  unfold number
  split
  · rename_i x rest heq
    cases heq
    have hx := h x rfl
    exact if_neg fun hhex => hhex.1.elim hx.1 hx.2
  · rfl

theorem head?_append_clear {p : Char → Bool} (hcs : ∀ d ∈ cs, p d = true) (hrest : Clear rest) :
    ∀ x ∈ (cs ++ rest).head?, p x = true ∨ x = ' ' := by
  cases cs with
  | nil => exact fun x hx => .inr (hrest x hx)
  | cons d cs =>
    rintro x ⟨⟩
    exact .inl (hcs d List.mem_cons_self)

theorem scan_number (h : Decimal.isDigit c = true) :
    scan c rest = ((number (c :: rest)).1, (number (c :: rest)).2 - 1) := by
  unfold scan startsNumber
  rw [h, Bool.true_or, if_pos rfl]

theorem scan_decimal (hds : ∀ d ∈ c :: cs, Decimal.isDigit d = true) (hrest : Clear rest) :
    scan c (cs ++ rest) = (orBad ((Decimal.fit? (Decimal.valueOf (c :: cs))).map .integer), cs.length) := by
  obtain ⟨hc, hcs⟩ := List.forall_mem_cons.mp hds
  have hhead : ∀ x ∈ (cs ++ rest).head?, x ≠ 'x' ∧ x ≠ 'X' := by
    intro x hx
    rcases head?_append_clear hcs hrest x hx with hd | rfl
    · constructor <;> (rintro rfl; revert hd; decide)
    · decide
  rw [scan_number hc, number_eq_decimalNumber hhead, ← List.cons_append, decimalNumber_of_digits hds hrest]
  rfl

theorem scan_hexadecimal {x : Char} (hx : x = 'x' ∨ x = 'X') (hne : ds ≠ []) (hds : ∀ d ∈ ds, isHexDigit d = true)
    (hrest : Clear rest) :
    scan '0' (x :: (ds ++ rest)) = (orBad ((Decimal.fit? (hexValueOf ds)).map .integer), ds.length + 1) := by
  rw [scan_number rfl]
  unfold number
  simp only [hrest.takeWhile_append rfl hds, if_pos (And.intro hx hne), Prod.mk.injEq, true_and]
  omega

/-! ## Values of digits -/

theorem valueOf_zeros (zeros : Nat) (ds : List Char) :
    Decimal.valueOf (List.replicate zeros '0' ++ ds) = Decimal.valueOf ds := by
  induction zeros with
  | zero => rfl
  | succ n ih => exact ih

theorem valueOf_toDigits (n : Nat) : Decimal.valueOf (Nat.toDigits 10 n) = n := by
  have h : Decimal.valueOf (Nat.toDigits 10 n) = Nat.ofDigitChars 10 (Nat.toDigits 10 n) 0 := by
    rw [Nat.ofDigitChars_eq_foldl]
    rfl
  rw [h, Nat.ofDigitChars_ten_toDigits]

theorem toNat_digitChar : ∀ d < 16, (Nat.digitChar d).toNat = if d < 10 then 48 + d else 87 + d := by decide

theorem toNat_toLower (c : Char) :
    c.toLower.toNat = if 65 ≤ c.toNat ∧ c.toNat ≤ 90 then c.toNat + 32 else c.toNat := by
  unfold Char.toLower
  simp only [ge_iff_le, UInt32.le_iff_toNat_le]
  change (if h : 65 ≤ c.toNat ∧ c.toNat ≤ 90 then _ else _ : Char).toNat = _
  split
  · rename_i h
    change (c.val + ('a'.val - 'A'.val)).toNat = _
    rw [UInt32.toNat_add]
    change (c.toNat + 32) % 2 ^ 32 = _
    omega
  · rfl

/-- A hexadecimal digit of either case. -/
theorem hexDigit_of_toLower {d : Nat} (hd : d < 16) (h : c.toLower = Nat.digitChar d) :
    isHexDigit c = true ∧ hexValue c = d := by
  have hlower := toNat_toLower c
  rw [h, toNat_digitChar d hd] at hlower
  have hnumber : d < 10 ∧ c.toNat = 48 + d ∨ 10 ≤ d ∧ (c.toNat = 87 + d ∨ c.toNat = 55 + d) := by
    split at hlower <;> split at hlower <;> omega
  have hsmall : 'a' ≤ c ↔ 97 ≤ c.toNat := by
    simp only [Char.le_def, UInt32.le_iff_toNat_le]
    rfl
  refine ⟨isHexDigit_iff.mpr (by omega), ?_⟩
  unfold hexValue
  simp only [isDigit_iff, hsmall]
  change (if 48 ≤ c.toNat ∧ c.toNat ≤ 57 then c.toNat - 48
    else if 97 ≤ c.toNat then c.toNat - 97 + 10 else c.toNat - 65 + 10) = d
  obtain ⟨hten, hc⟩ | ⟨hten, hc | hc⟩ := hnumber
  · rw [if_pos (by omega)]
    omega
  · rw [if_neg (by omega), if_pos (by omega)]
    omega
  · rw [if_neg (by omega), if_neg (by omega)]
    omega

theorem hexValueOf_append (cs : List Char) (c : Char) : hexValueOf (cs ++ [c]) = 16 * hexValueOf cs + hexValue c := by
  unfold hexValueOf
  rw [List.foldl_append]
  rfl

theorem hexValueOf_zeros (zeros : Nat) (ds : List Char) :
    hexValueOf (List.replicate zeros '0' ++ ds) = hexValueOf ds := by
  induction zeros with
  | zero => rfl
  | succ n ih => exact ih

/-- Hexadecimal digits of either case have the value of the lower-case ones. By induction on the number, whose last
digit is the last of them. -/
theorem hexDigits_of_toLower {n : Nat} {ds : List Char} (h : ds.map Char.toLower = Nat.toDigits 16 n) :
    (∀ d ∈ ds, isHexDigit d = true) ∧ hexValueOf ds = n := by
  induction n using Nat.strongRecOn generalizing ds with
  | ind n ih =>
    rw [Nat.toDigits_eq_if (by decide)] at h
    split at h
    · rename_i hn
      obtain ⟨d, rfl, hd⟩ := List.map_eq_singleton_iff.mp h
      obtain ⟨hdigit, hvalue⟩ := hexDigit_of_toLower hn hd
      refine ⟨List.forall_mem_singleton.mpr hdigit, ?_⟩
      change 16 * 0 + hexValue d = n
      omega
    · rename_i hn
      obtain ⟨ds, last, rfl, hds, hlast⟩ := List.map_eq_append_iff.mp h
      obtain ⟨d, rfl, hd⟩ := List.map_eq_singleton_iff.mp hlast
      obtain ⟨hdigits, hvalue⟩ := ih (n / 16) (by omega) hds
      obtain ⟨hdigit, hvalue'⟩ := hexDigit_of_toLower (Nat.mod_lt n (by decide)) hd
      refine ⟨List.forall_mem_append.mpr ⟨hdigits, List.forall_mem_singleton.mpr hdigit⟩, ?_⟩
      rw [hexValueOf_append, hvalue, hvalue']
      omega

theorem fit?_toInt (n : Int64) : Decimal.fit? n.toInt = some n := by
  have hlow := n.le_toInt
  have hhigh := n.toInt_lt
  unfold Decimal.fit? Decimal.minInt Decimal.maxInt
  rw [if_pos (by omega), Int64.ofInt_toInt]

/-! ## Strings -/

theorem bodyWidth_quote (cs : List Char) : bodyWidth ('"' :: cs) = 0 := by
  rw [bodyWidth.eq_def]
  rfl

theorem bodyWidth_escape {e : Char} (h : e ≠ '\n') (cs : List Char) :
    bodyWidth ('\\' :: e :: cs) = bodyWidth cs + 2 := by
  rw [bodyWidth.eq_def]
  simp only [if_pos, if_neg h, Nat.add_comm 2]

theorem bodyWidth_plain (hb : c ≠ '\\') (hq : c ≠ '"') (hn : c ≠ '\n') (cs : List Char) :
    bodyWidth (c :: cs) = bodyWidth cs + 1 := by
  rw [bodyWidth.eq_def]
  simp only [if_neg hb, hq, hn, or_self, if_neg not_false, Nat.add_comm 1]

theorem unescape_escape {e : Char} (h : escape? e = some c) (hcs : unescape cs = some ds) :
    unescape ('\\' :: e :: cs) = some (c :: ds) := by
  rw [unescape.eq_def]
  simp only [if_pos, h, hcs]

theorem unescape_plain (hb : c ≠ '\\') (hcs : unescape cs = some ds) : unescape (c :: cs) = some (c :: ds) := by
  rw [unescape.eq_def]
  simp only [if_neg hb, hcs, Option.map_some]

/-- A character is written as itself, or as an escape that stands for it. -/
theorem escaped_cases (c : Char) :
    escaped c = [c] ∧ c ≠ '\\' ∧ c ≠ '"' ∧ c ≠ '\n' ∨ ∃ e, escaped c = ['\\', e] ∧ e ≠ '\n' ∧ escape? e = some c := by
  unfold escaped
  split
  · rename_i hb
    exact .inr ⟨_, rfl, by decide, congrArg some hb.symm⟩
  · split
    · rename_i hq
      exact .inr ⟨_, rfl, by decide, congrArg some hq.symm⟩
    · split
      · rename_i hn
        exact .inr ⟨_, rfl, by decide, congrArg some hn.symm⟩
      · rename_i hb hq hn
        exact .inl ⟨rfl, hb, hq, hn⟩

/-- The body of a string is read to its end, and its escapes are resolved. -/
theorem body_escaped (cs rest : List Char) :
    bodyWidth (cs.flatMap escaped ++ '"' :: rest) = (cs.flatMap escaped).length ∧
      unescape (cs.flatMap escaped) = some cs := by
  induction cs with
  | nil => exact ⟨bodyWidth_quote rest, by rw [List.flatMap_nil, unescape]⟩
  | cons c cs ih =>
    obtain ⟨hwidth, hunescape⟩ := ih
    rw [List.flatMap_cons]
    obtain ⟨hc, hb, hq, hn⟩ | ⟨e, hc, hn, he⟩ := escaped_cases c
    · rw [hc, List.singleton_append, List.cons_append, bodyWidth_plain hb hq hn, hwidth]
      exact ⟨rfl, unescape_plain hb hunescape⟩
    · rw [hc]
      simp only [List.cons_append, List.nil_append, bodyWidth_escape hn, hwidth]
      exact ⟨rfl, unescape_escape he hunescape⟩

theorem scan_string (s : String) (rest : List Char) :
    scan '"' ((s.toList.flatMap escaped ++ ['"']) ++ rest) =
      (.token (.str s), (s.toList.flatMap escaped ++ ['"']).length) := by
  obtain ⟨hwidth, hunescape⟩ := body_escaped s.toList rest
  rw [List.append_assoc, List.singleton_append]
  change string _ = _
  unfold string
  simp only [hwidth, List.drop_left, List.take_left, hunescape, Option.map_some, String.ofList_toList,
    List.length_append, List.length_singleton]
  rfl

theorem newLine_notMem_escaped (c : Char) : ∀ d ∈ escaped c, (d != '\n') = true := by
  obtain ⟨hc, -, -, hn⟩ | ⟨e, hc, hn, -⟩ := escaped_cases c
  · rw [hc]
    simpa using hn
  · rw [hc]
    simpa using hn

/-! ## Any token -/

theorem isGap_eq_false {p : Char → Bool} (hp : p ' ' = false ∧ p '\t' = false ∧ p '\x0c' = false ∧ p '\r' = false)
    (hc : p c = true) : isGap c = false := by
  refine Bool.eq_false_iff.mpr fun hgap => ?_
  simp only [isGap, Bool.or_eq_true, beq_iff_eq, or_assoc] at hgap
  rcases hgap with rfl | rfl | rfl | rfl <;> simp_all

/-- What is written as some characters is read off the front, where it starts with no blank and ends no line unless
it is a line end. -/
structure Reads (t : Token) (c : Char) (cs : List Char) : Prop where
  scan {rest : List Char} : Clear rest → Scan.scan c (cs ++ rest) = (.token t, cs.length)
  start : isGap c = false
  lineEnds : Scan.lineEnds (c :: cs) = if t = .newLine then 1 else 0

theorem ofWord_ne_newLine (word : String) : Token.ofWord word ≠ .newLine := by
  unfold Token.ofWord
  split
  · nofun
  · split
    · nofun
    · split <;> nofun

theorem reads_word {s : String} (h : IsWord s) : ∃ c cs, s.toList = c :: cs ∧ Reads (Token.ofWord s) c cs := by
  obtain ⟨c, cs, hs, hc, hcs⟩ := h
  have hstart : isNameChar c = true := by
    simp only [isNameStart, isNameChar, Char.isAlphanum, Bool.or_eq_true] at hc ⊢
    exact hc.elim (fun ha => .inl (.inl ha)) .inr
  have hends : lineEnds (c :: cs) = 0 := lineEnds_eq_zero rfl (List.forall_mem_cons.mpr ⟨hstart, hcs⟩)
  refine ⟨c, cs, hs, ⟨fun hrest => ?_, isGap_eq_false ⟨rfl, rfl, rfl, rfl⟩ hc, ?_⟩⟩
  · rw [scan_word hc hcs hrest, ← hs, String.ofList_toList]
  · rw [hends, if_neg (ofWord_ne_newLine s)]

theorem isWord_keyword (k : Keyword) : IsWord k.spelling := by
  cases k <;> exact ⟨_, _, rfl, by decide, List.all_eq_true.mp rfl⟩

theorem isWord_bool (b : Bool) : IsWord (boolText b) := by
  cases b <;> exact ⟨_, _, rfl, by decide, List.all_eq_true.mp rfl⟩

theorem ofWord_keyword (k : Keyword) : Token.ofWord k.spelling = .keyword k := by
  cases k <;> decide

theorem ofWord_bool (b : Bool) : Token.ofWord (boolText b) = .bool b := by
  cases b <;> decide

theorem ofWord_name {s : String} (h : IsName s) : Token.ofWord s = .identifier s := by
  have hnone : Keyword.all.find? (·.spelling == s) = none := by simp [List.find?_eq_none, h.not_keyword]
  have htrue : s ≠ "true" := (h.not_bool true).symm
  have hfalse : s ≠ "false" := (h.not_bool false).symm
  unfold Token.ofWord
  rw [hnone]
  dsimp only
  rw [if_neg htrue, if_neg hfalse]

theorem reads_mark (m : Mark) : ∃ c cs, m.spelling.toList = c :: cs ∧ Reads (.mark m) c cs := by
  obtain ⟨c, cs, hm⟩ : ∃ c cs, m.spelling.toList = c :: cs := by cases m <;> exact ⟨_, _, rfl⟩
  refine ⟨c, cs, hm, ⟨scan_mark m hm, ?_, ?_⟩⟩
  · cases m <;> cases hm <;> rfl
  · cases m <;> cases hm <;> rfl

/-- Digits in base ten with zeros in front. -/
theorem isDigit_decimal (zeros n : Nat) :
    ∀ d ∈ List.replicate zeros '0' ++ Nat.toDigits 10 n, Decimal.isDigit d = true := by
  refine List.forall_mem_append.mpr ⟨fun d hd => ?_, fun d hd => ?_⟩
  · rw [List.eq_of_mem_replicate hd]
    rfl
  · have hdigit := Nat.isDigit_of_mem_toDigits (by decide) (by decide) hd
    simp only [Char.isDigit, Bool.and_eq_true, decide_eq_true_eq, ge_iff_le, UInt32.le_iff_toNat_le] at hdigit
    exact isDigit_iff.mpr hdigit

theorem reads_decimal {n : Int64} (hn : 0 ≤ n.toInt) (zeros : Nat) :
    ∃ c cs, List.replicate zeros '0' ++ Nat.toDigits 10 n.toInt.toNat = c :: cs ∧ Reads (.integer n) c cs := by
  have hds := isDigit_decimal zeros n.toInt.toNat
  have hne : List.replicate zeros '0' ++ Nat.toDigits 10 n.toInt.toNat ≠ [] :=
    List.append_ne_nil_of_right_ne_nil _ Nat.toDigits_ne_nil
  have hvalue : Decimal.valueOf (List.replicate zeros '0' ++ Nat.toDigits 10 n.toInt.toNat) = n.toInt.toNat := by
    rw [valueOf_zeros, valueOf_toDigits]
  obtain ⟨c, cs, heq⟩ := List.exists_cons_of_ne_nil hne
  rw [heq] at hds hvalue ⊢
  refine ⟨c, cs, rfl, ⟨fun hrest => ?_, ?_, lineEnds_eq_zero rfl hds⟩⟩
  · rw [scan_decimal hds hrest, hvalue, Int.toNat_of_nonneg hn, fit?_toInt]
    rfl
  · exact isGap_eq_false (p := Decimal.isDigit) ⟨rfl, rfl, rfl, rfl⟩ (hds c List.mem_cons_self)

theorem reads_hexadecimal {n : Int64} {x : Char} (zeros : Nat) (hn : 0 ≤ n.toInt) (hx : x = 'x' ∨ x = 'X')
    (h : ds.map Char.toLower = Nat.toDigits 16 n.toInt.toNat) :
    Reads (.integer n) '0' (x :: (List.replicate zeros '0' ++ ds)) := by
  obtain ⟨hdigits, hvalue⟩ := hexDigits_of_toLower h
  have hds : ∀ d ∈ List.replicate zeros '0' ++ ds, isHexDigit d = true := by
    refine List.forall_mem_append.mpr ⟨fun d hd => ?_, hdigits⟩
    rw [List.eq_of_mem_replicate hd]
    rfl
  have hne : List.replicate zeros '0' ++ ds ≠ [] := by
    refine List.append_ne_nil_of_right_ne_nil _ fun hnil => ?_
    rw [hnil] at h
    exact Nat.toDigits_ne_nil h.symm
  have hlines : Scan.lineEnds (List.replicate zeros '0' ++ ds) = 0 := lineEnds_eq_zero rfl hds
  refine ⟨fun hrest => ?_, rfl, ?_⟩
  · rw [List.cons_append, scan_hexadecimal hx hne hds hrest, hexValueOf_zeros, hvalue, Int.toNat_of_nonneg hn,
      fit?_toInt]
    rfl
  · unfold Scan.lineEnds at hlines ⊢
    rcases hx with rfl | rfl <;> simp [hlines]

theorem reads_string (s : String) : Reads (.str s) '"' (s.toList.flatMap escaped ++ ['"']) := by
  refine ⟨fun {rest} _ => scan_string s rest, rfl, lineEnds_eq_zero (p := (· != '\n')) rfl ?_⟩
  refine List.forall_mem_cons.mpr ⟨by decide, List.forall_mem_append.mpr ⟨?_, ?_⟩⟩
  · intro d hd
    obtain ⟨c, -, hd⟩ := List.mem_flatMap.mp hd
    exact newLine_notMem_escaped c d hd
  · exact List.forall_mem_singleton.mpr (by decide)

theorem reads_newLine : Reads .newLine '\n' [] := ⟨fun _ => rfl, rfl, rfl⟩

theorem reads_of_spells {t : Token} (h : t.Spells cs) : ∃ c cs', cs = c :: cs' ∧ Reads t c cs' := by
  cases h with
  | decimal zeros hn => exact reads_decimal hn zeros
  | hexadecimal zeros hn hx hds => exact ⟨_, _, rfl, reads_hexadecimal zeros hn hx hds⟩
  | str s => exact ⟨_, _, rfl, reads_string s⟩
  | bool b => exact ofWord_bool b ▸ reads_word (isWord_bool b)
  | keyword k => exact ofWord_keyword k ▸ reads_word (isWord_keyword k)
  | identifier hs => exact ofWord_name hs ▸ reads_word hs.word
  | mark m => exact reads_mark m
  | newLine => exact ⟨_, _, rfl, reads_newLine⟩

/-! ## Texts -/

/-- Tokens that start on a line, each with the line that it stands on. -/
def placedFrom (line : Nat) (ts : List Token) : List Placed :=
  ts.mapIdx fun i t => (t, line + (ts.take i).count .newLine)

theorem placedFrom_cons (line : Nat) (t : Token) (ts : List Token) :
    placedFrom line (t :: ts) = (t, line) :: placedFrom (line + if t = .newLine then 1 else 0) ts := by
  unfold placedFrom
  rw [List.mapIdx_cons]
  congr 1
  refine congrArg (List.mapIdx · ts) (funext fun i => funext fun u => ?_)
  simp only [List.take_succ_cons, List.count_cons, beq_iff_eq, Prod.mk.injEq, true_and]
  omega

theorem Reads.passes {t : Token} (h : Reads t c cs) (hrest : Clear rest) (line : Nat) :
    Passes line (c :: (cs ++ rest)) [(t, line)] (line + if t = .newLine then 1 else 0) rest :=
  h.lineEnds ▸ Passes.one (h.scan hrest)

/-- A single blank in front of a token. -/
theorem passes_blank (h : isGap c = false) (line : Nat) : Passes line (' ' :: c :: rest) [] line (c :: rest) := by
  have hscan : scan ' ' ([] ++ c :: rest) = (.gap, 0) := by
    show (Lexeme.gap, ((c :: rest).takeWhile isGap).length) = _
    rw [List.takeWhile_cons, if_neg (Bool.eq_false_iff.mp h)]
    rfl
  exact Passes.skip hscan

theorem intercalate_cons (sep c : Char) (cs : List Char) (texts : List (List Char)) :
    ∃ more, [sep].intercalate ((c :: cs) :: texts) = c :: more := by
  cases texts with
  | nil => exact ⟨cs, List.intercalate_singleton⟩
  | cons text texts => exact ⟨_, List.intercalate_cons_cons⟩

/-- By induction on the tokens: each is read up to the blank after it, or up to the end. -/
theorem passes_spelled {ts : List Token} {texts : List (List Char)} (h : List.Forall₂ Token.Spells ts texts)
    (line : Nat) :
    Passes line ([' '].intercalate texts) (placedFrom line ts) (line + ts.count .newLine) [] := by
  induction h generalizing line with
  | nil => exact .refl
  | @cons t text ts texts ht hts ih =>
    obtain ⟨c, cs, rfl, hreads⟩ := reads_of_spells ht
    have hcount : line + (t :: ts).count .newLine = line + (if t = .newLine then 1 else 0) + ts.count .newLine := by
      rw [List.count_cons]
      simp only [beq_iff_eq]
      omega
    have hfurther := ih (line + if t = .newLine then 1 else 0)
    rw [placedFrom_cons, hcount]
    cases hts with
    | nil =>
      have hone := hreads.passes (show Clear [] from nofun) line
      rw [List.append_nil] at hone
      rw [List.intercalate_singleton]
      exact hone
    | @cons u text' us texts hu hus =>
      obtain ⟨d, ds, rfl, hnext⟩ := reads_of_spells hu
      obtain ⟨more, hmore⟩ := intercalate_cons ' ' d ds texts
      rw [hmore] at hfurther
      rw [List.intercalate_cons_cons, hmore, List.append_assoc, List.singleton_append, List.cons_append]
      refine (hreads.passes ?_ line).trans ((passes_blank hnext.start _).trans hfurther)
      rintro x ⟨⟩
      rfl

end Scan

/-- Tokens that are written with single blanks between them are read again, each with one plus the number of line
ends in front of it. -/
theorem Token.tokenize_spelled (ts : List Token) (h : ∀ t ∈ ts, t.Spelled) :
    (∃ texts, List.Forall₂ Token.Spells ts texts) ∧
      ∀ texts, List.Forall₂ Token.Spells ts texts →
        tokenize (String.ofList ([' '].intercalate texts)) =
          .ok (ts.mapIdx fun i t => (t, 1 + (ts.take i).count .newLine)) := by
  constructor
  · induction ts with
    | nil => exact ⟨[], .nil⟩
    | cons t ts ih =>
      obtain ⟨ht, hts⟩ := List.forall_mem_cons.mp h
      obtain ⟨texts, htexts⟩ := ih hts
      obtain ⟨text, htext⟩ := ht.exists_spells
      exact ⟨text :: texts, .cons htext htexts⟩
  · intro texts htexts
    have hpasses := Scan.tokensFrom_of_passes (Scan.passes_spelled htexts 1)
    rw [tokenize, String.toList_ofList, hpasses, Scan.tokensFrom_nil]
    exact congrArg Except.ok (List.append_nil _)

/-- A name that starts like a keyword, a hexadecimal number, a string with a quote and a line end in it, and marks
that would be one without the blank. -/
theorem Token.tokenize_spelled_close :
    let ts : List Token := [.identifier "inn", .integer 255, .newLine, .str "\"\n", .mark .dot, .mark .dotDot]
    (∀ t ∈ ts, t.Spelled) ∧
      tokenize "inn 0xfF \n \"\\\"\\n\" . .." =
        .ok [(.identifier "inn", 1), (.integer 255, 1), (.newLine, 1), (.str "\"\n", 2), (.mark .dot, 2),
          (.mark .dotDot, 2)] := by
  intro ts
  have hname : IsName "inn" :=
    ⟨⟨_, _, rfl, by decide, List.all_eq_true.mp rfl⟩, fun k => by cases k <;> decide, fun b => by cases b <;> decide⟩
  have hts : ∀ t ∈ ts, t.Spelled := by simp [ts, Spelled, hname]
  have htexts : List.Forall₂ Spells ts
      ["inn".toList, "0xfF".toList, ['\n'], "\"\\\"\\n\"".toList, ['.'], ['.', '.']] :=
    .cons (.identifier hname) (.cons (.hexadecimal 0 (by decide) (.inl rfl) (by decide)) (.cons .newLine
      (.cons (.str _) (.cons (.mark .dot) (.cons (.mark .dotDot) .nil)))))
  have hread := (tokenize_spelled ts hts).2 _ htexts
  exact ⟨hts, hread⟩

end Crunch
