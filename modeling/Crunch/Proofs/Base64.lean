import Crunch.Encoding.Base64
import Mathlib.Algebra.Group.Nat.Defs
import Mathlib.Data.List.DropRight

/-!
# Crunch.Proofs.Base64

What is written with 64 symbols, and what can be read.

* `Base64.sextets`: a byte string as values of six bits each, the last one filled up with zeros.
* `Base64.ofValues_sextets`, `Base64.sextets_ofValues`: bytes come back from their values, and values
  from their bytes but for the bits that belong to no byte.
* `Base64.encode_eq`: the text of a byte string is the word of its values, filled up with `=`.
* `Base64.Spells`: a text is a word with whole or no padding.
* `Base64.decode_exact`: these texts and no others are read, and written again they are in normal form.
-/

namespace Crunch
namespace Base64

/-! ## Symbols -/

theorem length_alphabet : alphabet.length = 64 := by decide +kernel

theorem symbol_mem (n : Nat) : symbol n ∈ alphabet := by
  have hlt : n % 64 < alphabet.length := by
    rw [length_alphabet]
    exact Nat.mod_lt n (by decide)
  rw [symbol, List.getD_eq_getElem?_getD, List.getElem?_eq_getElem hlt]
  exact List.getElem_mem hlt

theorem value?_symbol {n : Nat} (h : n < 64) : value? (symbol n) = some n := by
  have hall : ∀ n ∈ List.range 64, value? (symbol n) = some n := by decide +kernel
  exact hall n (List.mem_range.mpr h)

theorem symbol_of_mem {c : Char} (h : c ∈ alphabet) : ∃ n < 64, symbol n = c := by
  obtain ⟨n, hn, rfl⟩ := List.getElem_of_mem h
  have hlt : n < 64 := length_alphabet ▸ hn
  refine ⟨n, hlt, ?_⟩
  rw [symbol, Nat.mod_eq_of_lt hlt, List.getD_eq_getElem?_getD, List.getElem?_eq_getElem hn, Option.getD_some]

theorem value?_of_not_mem {c : Char} (h : c ∉ alphabet) : value? c = none := by
  rw [value?, List.findIdx?_eq_none_iff]
  intro x hx
  simp only [beq_eq_false_iff_ne]
  exact fun he => h (he ▸ hx)

theorem padding_not_mem : '=' ∉ alphabet := by decide +kernel

/-! ## Words -/

/-- Every character is a symbol. -/
def IsWord (w : List Char) : Prop := ∀ c ∈ w, c ∈ alphabet

variable {vs : List Nat} {w : List Char}

theorem isWord_map (vs : List Nat) : IsWord (vs.map symbol) := by
  intro c hc
  obtain ⟨n, -, rfl⟩ := List.mem_map.mp hc
  exact symbol_mem n

theorem IsWord.values (h : IsWord w) : ∃ vs : List Nat, (∀ v ∈ vs, v < 64) ∧ w = vs.map symbol := by
  induction w with
  | nil => exact ⟨[], nofun, rfl⟩
  | cons c w ih =>
    obtain ⟨hc, hw⟩ := List.forall_mem_cons.mp h
    obtain ⟨n, hn, rfl⟩ := symbol_of_mem hc
    obtain ⟨vs, hvs, rfl⟩ := ih hw
    exact ⟨n :: vs, List.forall_mem_cons.mpr ⟨hn, hvs⟩, rfl⟩

theorem values?_map (h : ∀ v ∈ vs, v < 64) : values? (vs.map symbol) = some vs := by
  induction vs with
  | nil => rfl
  | cons v vs ih =>
    obtain ⟨hv, hvs⟩ := List.forall_mem_cons.mp h
    simp only [List.map_cons, values?, value?_symbol hv, ih hvs]

theorem isWord_of_values? (h : values? w = some vs) : IsWord w := by
  induction w generalizing vs with
  | nil => exact nofun
  | cons c w ih =>
    rw [values?] at h
    split at h
    · rename_i hv hvs
      refine List.forall_mem_cons.mpr ⟨?_, ih hvs⟩
      by_contra hc
      rw [value?_of_not_mem hc] at hv
      cases hv
    · cases h

/-! ## Values of six bits -/

/-- The bits of a byte string, six at a time, the last ones filled up with zeros. -/
def sextets : List UInt8 → List Nat
  | [] => []
  | [a] => [a.toNat / 4, a.toNat % 4 * 16]
  | [a, b] => [a.toNat / 4, a.toNat % 4 * 16 + b.toNat / 16, b.toNat % 16 * 4]
  | a :: b :: c :: rest =>
    (a.toNat / 4) :: (a.toNat % 4 * 16 + b.toNat / 16) :: (b.toNat % 16 * 4 + c.toNat / 64) :: (c.toNat % 64)
      :: sextets rest

/-- How many `=` fill a number of symbols up to a multiple of four. -/
def missing (n : Nat) : Nat := (4 - n % 4) % 4

/-- How many bits of a number of symbols belong to no byte. -/
def spareBits (n : Nat) : Nat := 6 * n % 8

theorem missing_add_four (n : Nat) : missing (n + 4) = missing n := by
  unfold missing
  omega

theorem spareBits_add_four (n : Nat) : spareBits (n + 4) = spareBits n := by
  unfold spareBits
  omega

/-- A text is the word of the values of its bytes, filled up. -/
theorem encode_eq (b : List UInt8) :
    encode b = (sextets b).map symbol ++ List.replicate (missing (sextets b).length) '=' := by
  fun_induction sextets b with
  | case1 | case2 | case3 => rfl
  | case4 a b c rest ih =>
    simp only [encode, ih, List.map_cons, List.cons_append, List.length_cons]
    rw [missing_add_four]

theorem sextets_lt (b : List UInt8) : ∀ v ∈ sextets b, v < 64 := by
  fun_induction sextets b with
  | case1 => exact nofun
  | case2 a =>
    have ha := a.toNat_lt
    simp only [List.mem_cons, List.not_mem_nil, or_false]
    omega
  | case3 a b =>
    have ha := a.toNat_lt
    have hb := b.toNat_lt
    simp only [List.mem_cons, List.not_mem_nil, or_false]
    omega
  | case4 a b c rest ih =>
    have ha := a.toNat_lt
    have hb := b.toNat_lt
    have hc := c.toNat_lt
    simp only [List.forall_mem_cons]
    exact ⟨by omega, by omega, by omega, by omega, ih⟩

theorem length_encode (b : List UInt8) : (encode b).length = 4 * ((b.length + 2) / 3) := by
  fun_induction encode b with
  | case1 => rfl
  | case2 | case3 => simp
  | case4 a b c rest ih =>
    simp only [List.length_cons, ih]
    omega

theorem length_sextets (b : List UInt8) : (sextets b).length % 4 ≠ 1 := by
  fun_induction sextets b with
  | case1 | case2 | case3 => simp
  | case4 a b c rest ih =>
    simp only [List.length_cons]
    omega

theorem ofNat_eq {a : UInt8} {n : Nat} (h : n = a.toNat) : UInt8.ofNat n = a := by
  rw [h, UInt8.ofNat_toNat]

theorem ofValues_sextets (b : List UInt8) : ofValues (sextets b) = b := by
  fun_induction sextets b with
  | case1 => rfl
  | case2 a => rw [ofValues, ofNat_eq (a := a) (by omega)]
  | case3 a b =>
    have hb := b.toNat_lt
    rw [ofValues, ofNat_eq (a := a) (by omega), ofNat_eq (a := b) (by omega)]
  | case4 a b c rest ih =>
    have hb := b.toNat_lt
    have hc := c.toNat_lt
    rw [ofValues, ofNat_eq (a := a) (by omega), ofNat_eq (a := b) (by omega), ofNat_eq (a := c) (by omega), ih]

/-- A value with its low bits cleared. -/
def clear (bits v : Nat) : Nat := v / 2 ^ bits * 2 ^ bits

/-- Values with the bits of the last one cleared that belong to no byte. -/
def clearLast (vs : List Nat) : List Nat :=
  vs.dropLast ++ (vs.getLast?.map (clear (spareBits vs.length))).toList

theorem clearLast_four (p q r s : Nat) (vs : List Nat) :
    clearLast (p :: q :: r :: s :: vs) = p :: q :: r :: s :: clearLast vs := by
  cases vs with
  | nil => simp [clearLast, clear, spareBits]
  | cons v vs => simp [clearLast, spareBits_add_four (vs.length + 1), List.getLast?_cons_cons]

theorem sextets_ofValues (h : ∀ v ∈ vs, v < 64) (hl : vs.length % 4 ≠ 1) : sextets (ofValues vs) = clearLast vs := by
  fun_induction ofValues vs with
  | case1 p q r s rest ih =>
    simp only [List.forall_mem_cons] at h
    obtain ⟨hp, hq, hr, hs, hrest⟩ := h
    have hlength : rest.length % 4 ≠ 1 := by
      simp only [List.length_cons] at hl
      omega
    rw [clearLast_four, sextets, ih hrest hlength]
    simp only [UInt8.toNat_ofNat', List.cons.injEq, and_true]
    omega
  | case2 p q r =>
    simp only [List.forall_mem_cons] at h
    obtain ⟨hp, hq, hr, -⟩ := h
    have hcleared : clearLast [p, q, r] = [p, q, r / 4 * 4] := by simp [clearLast, clear, spareBits]
    rw [hcleared, sextets]
    simp only [UInt8.toNat_ofNat', List.cons.injEq, and_true]
    omega
  | case3 p q =>
    simp only [List.forall_mem_cons] at h
    obtain ⟨hp, hq, -⟩ := h
    have hcleared : clearLast [p, q] = [p, q / 16 * 16] := by simp [clearLast, clear, spareBits]
    rw [hcleared, sextets]
    simp only [UInt8.toNat_ofNat', List.cons.injEq, and_true]
    omega
  | case4 vs hfour hthree htwo =>
    rcases vs with _ | ⟨p, _ | ⟨q, _ | ⟨r, _ | ⟨s, rest⟩⟩⟩⟩
    · rfl
    · exact absurd rfl hl
    · exact (htwo p q rfl).elim
    · exact (hthree p q r rfl).elim
    · exact (hfour p q r s rest rfl).elim

/-! ## Padding -/

/-- A text is a word with whole or no padding. -/
structure Spells (s w : List Char) (padding : Nat) : Prop where
  text : s = w ++ List.replicate padding '='
  word : IsWord w
  length : w.length % 4 ≠ 1
  padding : padding = 0 ∨ padding = missing w.length

theorem unpadded_append (h : IsWord w) (n : Nat) : unpadded (w ++ List.replicate n '=') = w := by
  have hw : w.rdropWhile (· == '=') = w := by
    rw [List.rdropWhile_eq_self_iff]
    intro hne he
    exact padding_not_mem (beq_iff_eq.mp he ▸ h _ (List.getLast_mem hne))
  show List.rdropWhile (· == '=') (w ++ List.replicate n '=') = w
  induction n with
  | zero => rw [List.replicate_zero, List.append_nil, hw]
  | succ n ih =>
    rw [List.replicate_succ', ← List.append_assoc, List.rdropWhile_concat_pos _ _ _ rfl]
    exact ih

/-- What is cut off is padding. -/
theorem eq_unpadded_append (s : List Char) :
    s = unpadded s ++ List.replicate (s.length - (unpadded s).length) '=' := by
  have hsplit : s.reverse.takeWhile (· == '=') ++ s.reverse.dropWhile (· == '=') = s.reverse :=
    List.takeWhile_append_dropWhile
  have hrev : s = unpadded s ++ (s.reverse.takeWhile (· == '=')).reverse := by
    rw [unpadded, ← List.reverse_append, hsplit, List.reverse_reverse]
  have hpad : (s.reverse.takeWhile (· == '=')).reverse =
      List.replicate (s.reverse.takeWhile (· == '=')).length '=' := by
    refine List.eq_replicate_iff.mpr ⟨List.length_reverse, fun c hc => ?_⟩
    exact beq_iff_eq.mp (List.mem_takeWhile_imp (p := (· == '=')) (List.mem_reverse.mp hc))
  have hlength : s.length - (unpadded s).length = (s.reverse.takeWhile (· == '=')).length := by
    have := congrArg List.length hrev
    rw [List.length_append, List.length_reverse] at this
    omega
  rw [hlength, ← hpad]
  exact hrev

theorem missing_le {n : Nat} (h : n % 4 ≠ 1) : missing n ≤ 2 := by
  unfold missing
  omega

variable {s : List Char} {padding : Nat}

/-- What a text with whole or no padding decodes to. -/
theorem decode?_of_spells (h : Spells s w padding) : decode? s = (values? w).map ofValues := by
  have hle := missing_le h.length
  have hpadding := h.padding
  have hlength := h.length
  have hs := h.text
  subst hs
  simp only [decode?, unpadded_append h.word, List.length_append, List.length_replicate, Nat.add_sub_cancel_left]
  rw [if_neg]
  unfold missing at hpadding hle
  omega

/-- Nothing else decodes. -/
theorem spells_of_decode? {bytes : List UInt8} (h : decode? s = some bytes) :
    Spells s (unpadded s) (s.length - (unpadded s).length) := by
  simp only [decode?] at h
  split at h
  · cases h
  · rename_i hcond
    obtain ⟨vs, hvs, -⟩ := Option.map_eq_some_iff.mp h
    have hlength := congrArg List.length (eq_unpadded_append s)
    simp only [List.length_append, List.length_replicate] at hlength
    refine ⟨eq_unpadded_append s, isWord_of_values? hvs, by omega, ?_⟩
    unfold missing
    omega

/-! ## Normal form -/

/-- The word with the bits of its last symbol cleared that belong to no byte, filled up. -/
def normalForm (w : List Char) : List Char :=
  w.dropLast ++ (w.getLast?.map fun c => symbol (clear (spareBits w.length) ((value? c).getD 0))).toList ++
    List.replicate (missing w.length) '='

theorem normalForm_map (h : ∀ v ∈ vs, v < 64) :
    normalForm (vs.map symbol) = (clearLast vs).map symbol ++ List.replicate (missing vs.length) '=' := by
  rw [normalForm, clearLast, List.map_append, ← List.map_dropLast, List.getLast?_map, List.length_map]
  cases hlast : vs.getLast? with
  | none => rfl
  | some v =>
    have hv : v < 64 := h v (List.mem_of_getLast? hlast)
    simp [value?_symbol hv]

theorem length_clearLast (vs : List Nat) : (clearLast vs).length = vs.length := by
  rcases List.eq_nil_or_concat vs with rfl | ⟨vs, v, rfl⟩
  · rfl
  · simp [clearLast]

theorem encode_ofValues (h : ∀ v ∈ vs, v < 64) (hl : vs.length % 4 ≠ 1) :
    encode (ofValues vs) = normalForm (vs.map symbol) := by
  rw [encode_eq, sextets_ofValues h hl, length_clearLast, normalForm_map h]

theorem spells_encode (b : List UInt8) :
    Spells (encode b) ((sextets b).map symbol) (missing (sextets b).length) where
  text := encode_eq b
  word := isWord_map _
  length := by
    rw [List.length_map]
    exact length_sextets b
  padding := .inr (by rw [List.length_map])

theorem decode?_encode (b : List UInt8) : decode? (encode b) = some b := by
  rw [decode?_of_spells (spells_encode b), values?_map (sextets_lt b), Option.map_some, ofValues_sextets]

/-- Bytes come back from their text, which is a word of whole groups of four with at most two `=` at its end.
A text is read exactly if it is a word with whole or no padding that can come from bytes, and what has been
read is written in normal form. -/
theorem decode_exact :
    (∀ b, decode? (encode b) = some b ∧ (encode b).length = 4 * ((b.length + 2) / 3) ∧
      ∃ w padding, encode b = w ++ List.replicate padding '=' ∧ IsWord w ∧ padding ≤ 2) ∧
    ∀ s, ((decode? s).isSome = true ↔ ∃ w padding, Spells s w padding) ∧
      ∀ w padding, Spells s w padding → ∃ b, decode? s = some b ∧ encode b = normalForm w := by
  have hread : ∀ s w padding, Spells s w padding → ∃ b, decode? s = some b ∧ encode b = normalForm w := by
    intro s w padding h
    obtain ⟨vs, hvs, rfl⟩ := h.word.values
    refine ⟨ofValues vs, ?_, encode_ofValues hvs (by simpa using h.length)⟩
    rw [decode?_of_spells h, values?_map hvs]
    rfl
  refine ⟨fun b => ⟨decode?_encode b, length_encode b, ?_⟩, fun s => ⟨⟨fun h => ?_, ?_⟩, hread s⟩⟩
  · exact ⟨_, _, encode_eq b, isWord_map _, missing_le (length_sextets b)⟩
  · obtain ⟨b, hb⟩ := Option.isSome_iff_exists.mp h
    exact ⟨_, _, spells_of_decode? hb⟩
  · rintro ⟨w, padding, h⟩
    obtain ⟨b, hb, -⟩ := hread s w padding h
    rw [hb]
    rfl

/-- A word without padding whose last symbol has bits that belong to no byte. -/
theorem decode_exact_unpadded : Spells "TWF".toList "TWF".toList 0 ∧
    ∃ b, decode? "TWF".toList = some b ∧ encode b = "TWE=".toList := by
  have hword : IsWord "TWF".toList := isWord_map [19, 22, 5]
  have hspells : Spells "TWF".toList "TWF".toList 0 := ⟨(List.append_nil _).symm, hword, by decide, .inl rfl⟩
  have hnormal : normalForm "TWF".toList = "TWE=".toList := by decide +kernel
  exact ⟨hspells, hnormal ▸ (decode_exact.2 "TWF".toList).2 "TWF".toList 0 hspells⟩

end Base64
end Crunch
