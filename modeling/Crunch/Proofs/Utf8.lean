import Crunch.Text.Utf8

/-!
# Crunch.Proofs.Utf8

Text as bytes.

* `Utf8.Spells`: the sequences that the bytes of a character can be.
* `Utf8.scan_char`: the bytes of a character are read as that character, whatever follows them.
* `Utf8.scan_unfinished`, `Utf8.scan_misplaced`: a part of them is malformed.
* `Utf8.decode_encode`: the bytes of a text are read as that text.
* `Utf8.notMem_char`: a line feed is among the bytes of no other character.
-/

namespace Crunch
namespace Utf8

/-- The bytes of some characters. -/
def spell (cs : List Char) : List UInt8 := cs.flatMap String.utf8EncodeChar

@[simp] theorem spell_nil : spell [] = [] := rfl

@[simp] theorem spell_cons (c : Char) (cs : List Char) : spell (c :: cs) = String.utf8EncodeChar c ++ spell cs := rfl

@[simp] theorem spell_append (cs ds : List Char) : spell (cs ++ ds) = spell cs ++ spell ds := List.flatMap_append

@[simp] theorem spell_eq_nil {cs : List Char} : spell cs = [] ↔ cs = [] := by
  cases cs with
  | nil => simp
  | cons c cs =>
    have hpos : 0 < (String.utf8EncodeChar c).length := by
      rw [String.length_utf8EncodeChar]
      exact c.utf8Size_pos
    simp [List.length_pos_iff.mp hpos]

theorem encode_ofList (cs : List Char) : encode (String.ofList cs) = spell cs := by
  rw [encode, String.toByteArray_ofList, List.utf8Encode, List.data_toByteArray]
  rfl

theorem encode_eq_spell (s : String) : encode s = spell s.toList := by
  rw [← encode_ofList, String.ofList_toList]

@[simp] theorem encode_append (s t : String) : encode (s ++ t) = encode s ++ encode t := by
  rw [encode_eq_spell, String.toList_append, spell_append, ← encode_eq_spell, ← encode_eq_spell]

theorem length_encode (s : String) : (encode s).length = s.utf8ByteSize := by
  rw [← String.size_toByteArray]
  rfl

/-! ## Reading a character back -/

theorem toNat_byte {n : Nat} (h : n < 256) : (UInt8.ofNat n).toNat = n := by
  rw [UInt8.toNat_ofNat', Nat.mod_eq_of_lt h]

/-- Number of bytes of the sequence that a byte starts, by the number of the byte. -/
theorem sequenceLength_byte {n : Nat} (h : n < 256) :
    sequenceLength (UInt8.ofNat n) =
      if n < 0x80 then 1 else if n < 0xC2 then 0 else if n < 0xE0 then 2 else if n < 0xF0 then 3
        else if n < 0xF5 then 4 else 0 := by
  simp only [sequenceLength, UInt8.lt_iff_toNat_lt, toNat_byte h]
  rfl

/-- Which bytes may stand second, by the numbers of the bytes. -/
theorem isSecond_byte {m n : Nat} (hm : m < 256) (hlow : 0x80 ≤ n) (hhigh : n ≤ 0xBF) (hE0 : m = 0xE0 → 0xA0 ≤ n)
    (hED : m = 0xED → n ≤ 0x9F) (hF0 : m = 0xF0 → 0x90 ≤ n) (hF4 : m = 0xF4 → n ≤ 0x8F) :
    isSecond (UInt8.ofNat m) (UInt8.ofNat n) = true := by
  have heq (k : UInt8) : UInt8.ofNat m = k ↔ m = k.toNat := by rw [← UInt8.toNat_inj, toNat_byte hm]
  have hn : (UInt8.ofNat n).toNat = n := toNat_byte (by omega)
  simp only [isSecond, secondRange, heq, UInt8.le_iff_toNat_le, hn, Bool.and_eq_true, decide_eq_true_eq]
  split
  · exact ⟨hE0 ‹_›, hhigh⟩
  split
  · exact ⟨hlow, hED ‹_›⟩
  split
  · exact ⟨hF0 ‹_›, hhigh⟩
  split
  · exact ⟨hlow, hF4 ‹_›⟩
  · exact ⟨hlow, hhigh⟩

theorem isContinuation_tail (n : Nat) : isContinuation (UInt8.ofNat (n % 64 + 128)) = true := by
  simp only [isContinuation, UInt8.le_iff_toNat_le, toNat_byte (show n % 64 + 128 < 256 by omega), Bool.and_eq_true,
    decide_eq_true_eq]
  exact ⟨by simp, by simp; omega⟩

theorem payload_tail (n : Nat) : payload (UInt8.ofNat (n % 64 + 128)) = n % 64 := by
  rw [payload, toNat_byte (by omega)]
  omega

section
variable {b c d e : UInt8} (rest : List UInt8)

theorem scan_one (hb : sequenceLength b = 1) : scan (b :: rest) = some (Char.ofNat b.toNat) :: scan rest := by
  rw [scan.eq_def]
  simp only [hb, if_true]

theorem scan_two (hb : sequenceLength b = 2) (hc : isSecond b c = true) :
    scan (b :: c :: rest) = some (Char.ofNat (b.toNat % 32 * 64 + payload c)) :: scan rest := by
  rw [scan.eq_def]
  simp [hb, hc]

theorem scan_three (hb : sequenceLength b = 3) (hc : isSecond b c = true) (hd : isContinuation d = true) :
    scan (b :: c :: d :: rest) =
      some (Char.ofNat ((b.toNat % 16 * 64 + payload c) * 64 + payload d)) :: scan rest := by
  rw [scan.eq_def]
  simp [hb, hc, hd]

theorem scan_four (hb : sequenceLength b = 4) (hc : isSecond b c = true) (hd : isContinuation d = true)
    (he : isContinuation e = true) :
    scan (b :: c :: d :: e :: rest) =
      some (Char.ofNat (((b.toNat % 8 * 64 + payload c) * 64 + payload d) * 64 + payload e)) :: scan rest := by
  rw [scan.eq_def]
  simp [hb, hc, hd, he]

end

/-- The sequences of one to four bytes that are read as a character. -/
inductive Spells (c : Char) : List UInt8 → Prop where
  | one {b : UInt8} : sequenceLength b = 1 → Char.ofNat b.toNat = c → Spells c [b]
  | two {b d : UInt8} : sequenceLength b = 2 → isSecond b d = true →
      Char.ofNat (b.toNat % 32 * 64 + payload d) = c → Spells c [b, d]
  | three {b d e : UInt8} : sequenceLength b = 3 → isSecond b d = true → isContinuation e = true →
      Char.ofNat ((b.toNat % 16 * 64 + payload d) * 64 + payload e) = c → Spells c [b, d, e]
  | four {b d e f : UInt8} : sequenceLength b = 4 → isSecond b d = true → isContinuation e = true →
      isContinuation f = true →
      Char.ofNat (((b.toNat % 8 * 64 + payload d) * 64 + payload e) * 64 + payload f) = c → Spells c [b, d, e, f]

theorem spells_char (c : Char) : Spells c (String.utf8EncodeChar c) := by
  have hc : c.toNat < 0xD800 ∨ 0xDFFF < c.toNat ∧ c.toNat < 0x110000 := c.valid
  have hback (k : Nat) (hk : k = c.toNat) : Char.ofNat k = c := by rw [hk, Char.ofNat_toNat]
  have hv : c.val.toNat = c.toNat := rfl
  simp only [String.utf8EncodeChar, hv]
  generalize c.toNat = n at hc hback
  split
  · have hn : n < 256 := by omega
    have hlen := sequenceLength_byte hn
    rw [if_pos (by omega)] at hlen
    exact .one hlen (hback _ (toNat_byte hn))
  split
  · have hfirst : n / 64 % 32 + 192 < 256 := by omega
    have hlen := sequenceLength_byte hfirst
    rw [if_neg (by omega), if_neg (by omega), if_pos (by omega)] at hlen
    have hsecond := isSecond_byte hfirst (show 0x80 ≤ n % 64 + 128 by omega) (by omega) (by omega) (by omega) (by omega)
      (by omega)
    refine .two hlen hsecond (hback _ ?_)
    rw [toNat_byte hfirst, payload_tail]
    omega
  split
  · have hfirst : n / 4096 % 16 + 224 < 256 := by omega
    have hlen := sequenceLength_byte hfirst
    rw [if_neg (by omega), if_neg (by omega), if_neg (by omega), if_pos (by omega)] at hlen
    have hsecond := isSecond_byte hfirst (show 0x80 ≤ n / 64 % 64 + 128 by omega) (by omega) (by omega) (by omega)
      (by omega) (by omega)
    refine .three hlen hsecond (isContinuation_tail n) (hback _ ?_)
    rw [toNat_byte hfirst, payload_tail, payload_tail]
    omega
  · have hfirst : n / 262144 % 8 + 240 < 256 := by omega
    have hlen := sequenceLength_byte hfirst
    rw [if_neg (by omega), if_neg (by omega), if_neg (by omega), if_neg (by omega), if_pos (by omega)] at hlen
    have hsecond := isSecond_byte hfirst (show 0x80 ≤ n / 4096 % 64 + 128 by omega) (by omega) (by omega) (by omega)
      (by omega) (by omega)
    refine .four hlen hsecond (isContinuation_tail (n / 64)) (isContinuation_tail n) (hback _ ?_)
    rw [toNat_byte hfirst, payload_tail, payload_tail, payload_tail]
    omega

/-- The bytes of a character are read as that character, whatever follows them. -/
theorem scan_char (c : Char) (rest : List UInt8) : scan (String.utf8EncodeChar c ++ rest) = some c :: scan rest := by
  generalize hbytes : String.utf8EncodeChar c = bytes
  have h : Spells c bytes := hbytes ▸ spells_char c
  cases h with
  | one hb hc => rw [List.cons_append, List.nil_append, scan_one _ hb, hc]
  | two hb hd hc => simp only [List.cons_append, List.nil_append, scan_two _ hb hd, hc]
  | three hb hd he hc => simp only [List.cons_append, List.nil_append, scan_three _ hb hd he, hc]
  | four hb hd he hf hc => simp only [List.cons_append, List.nil_append, scan_four _ hb hd he hf, hc]

/-- The bytes of some characters are read as those characters, whatever follows them. -/
theorem scan_spell_append (cs : List Char) (rest : List UInt8) : scan (spell cs ++ rest) = cs.map some ++ scan rest := by
  induction cs with
  | nil => rfl
  | cons c cs ih => rw [spell_cons, List.append_assoc, scan_char, ih, List.map_cons, List.cons_append]

theorem scan_spell (cs : List Char) : scan (spell cs) = cs.map some := by
  have h := scan_spell_append cs []
  rwa [List.append_nil, scan.eq_def [], List.append_nil] at h

theorem allChars_some (cs : List Char) : allChars (cs.map some) = some cs := by
  induction cs with
  | nil => rfl
  | cons c cs ih => rw [List.map_cons, allChars, ih, Option.map_some]

theorem decode_spell (cs : List Char) : decode? (spell cs) = some (String.ofList cs) := by
  rw [decode?, scan_spell, allChars_some, Option.map_some]

/-- The bytes of a text are read as that text. -/
theorem decode_encode (s : String) : decode? (encode s) = some s := by
  rw [encode_eq_spell, decode_spell, String.ofList_toList]

theorem decodeLossy_spell (cs : List Char) : decodeLossy (spell cs) = String.ofList cs := by
  rw [decodeLossy, scan_spell, List.map_map]
  exact congrArg String.ofList (List.map_id cs)

/-! ## Parts of characters -/

theorem sequenceLength_of_isContinuation {b : UInt8} (h : isContinuation b = true) : sequenceLength b = 0 := by
  simp only [isContinuation, Bool.and_eq_true, decide_eq_true_eq, UInt8.le_iff_toNat_le] at h
  have hlow : ¬b < 0x80 := by
    rw [UInt8.lt_iff_toNat_lt]
    exact Nat.not_lt.mpr h.1
  have hhigh : b < 0xC2 := by
    rw [UInt8.lt_iff_toNat_lt]
    exact Nat.lt_of_le_of_lt h.2 (by decide)
  rw [sequenceLength, if_neg hlow, if_pos hhigh]

theorem isContinuation_of_isSecond {b c : UInt8} (h : isSecond b c = true) : isContinuation c = true := by
  have hrange : 0x80 ≤ (secondRange b).1 ∧ (secondRange b).2 ≤ 0xBF := by
    unfold secondRange
    split
    · decide
    split
    · decide
    split
    · decide
    split <;> decide
  simp only [isSecond, isContinuation, Bool.and_eq_true, decide_eq_true_eq] at h ⊢
  exact ⟨UInt8.le_trans hrange.1 h.1, UInt8.le_trans h.2 hrange.2⟩

/-- The first bytes of a character, without the last ones, spell nothing. -/
theorem scan_unfinished {c : Char} {k : Nat} (hpos : 0 < k) (hk : k < (String.utf8EncodeChar c).length) :
    scan ((String.utf8EncodeChar c).take k) = [none] := by
  generalize hbytes : String.utf8EncodeChar c = bytes at hk
  have h : Spells c bytes := hbytes ▸ spells_char c
  cases h with
  | one hb hc =>
    simp only [List.length_cons, List.length_nil] at hk
    omega
  | two hb hd hc =>
    simp only [List.length_cons, List.length_nil] at hk
    obtain rfl : k = 1 := by omega
    simp [scan, hb]
  | three hb hd he hc =>
    simp only [List.length_cons, List.length_nil] at hk
    obtain rfl | rfl : k = 1 ∨ k = 2 := by omega
    · simp [scan, hb]
    · simp [scan, hb, hd]
  | four hb hd he hf hc =>
    simp only [List.length_cons, List.length_nil] at hk
    obtain rfl | rfl | rfl : k = 1 ∨ k = 2 ∨ k = 3 := by omega
    · simp [scan, hb]
    · simp [scan, hb, hd]
    · simp [scan, hb, hd, he]

theorem scan_continuation {b : UInt8} (h : isContinuation b = true) (rest : List UInt8) :
    scan (b :: rest) = none :: scan rest := by
  rw [scan.eq_def]
  simp only [sequenceLength_of_isContinuation h, Nat.zero_ne_one, if_false, if_true]

/-- The bytes of a character without the first ones spell nothing, whatever follows them. -/
theorem scan_misplaced {c : Char} {k : Nat} (hpos : 0 < k) (hk : k < (String.utf8EncodeChar c).length)
    (rest : List UInt8) : none ∈ scan ((String.utf8EncodeChar c).drop k ++ rest) := by
  have key : ∀ b more, (String.utf8EncodeChar c).drop k = b :: more → isContinuation b = true →
      none ∈ scan ((String.utf8EncodeChar c).drop k ++ rest) := by
    intro b more hdrop hb
    rw [hdrop, List.cons_append, scan_continuation hb]
    exact List.mem_cons_self
  generalize hbytes : String.utf8EncodeChar c = bytes at hk key
  have h : Spells c bytes := hbytes ▸ spells_char c
  cases h with
  | one hb hc =>
    simp only [List.length_cons, List.length_nil] at hk
    omega
  | two hb hd hc =>
    simp only [List.length_cons, List.length_nil] at hk
    obtain rfl : k = 1 := by omega
    exact key _ _ rfl (isContinuation_of_isSecond hd)
  | three hb hd he hc =>
    simp only [List.length_cons, List.length_nil] at hk
    obtain rfl | rfl : k = 1 ∨ k = 2 := by omega
    · exact key _ _ rfl (isContinuation_of_isSecond hd)
    · exact key _ _ rfl he
  | four hb hd he hf hc =>
    simp only [List.length_cons, List.length_nil] at hk
    obtain rfl | rfl | rfl : k = 1 ∨ k = 2 ∨ k = 3 := by omega
    · exact key _ _ rfl (isContinuation_of_isSecond hd)
    · exact key _ _ rfl he
    · exact key _ _ rfl hf

theorem allChars_eq_none {xs : List (Option Char)} (h : none ∈ xs) : allChars xs = none := by
  induction xs with
  | nil => cases h
  | cons x xs ih =>
    cases x with
    | none => rfl
    | some c =>
      rw [allChars, ih ((List.mem_cons.mp h).resolve_left nofun), Option.map_none]

/-! ## Line feeds -/

/-- A line feed is among the bytes of no other character. -/
theorem notMem_char {c : Char} (h : c ≠ '\n') : ∀ b ∈ String.utf8EncodeChar c, b ≠ 10 := by
  have hc : c.toNat ≠ 10 := fun hc => h (Char.ext (UInt32.toNat_inj.mp hc))
  have hne {k : Nat} (hk : k < 256) (hk10 : k ≠ 10) : UInt8.ofNat k ≠ 10 := fun he => by
    rw [← UInt8.toNat_inj, toNat_byte hk] at he
    exact hk10 he
  have hv : c.val.toNat = c.toNat := rfl
  simp only [String.utf8EncodeChar, hv]
  split
  · exact List.forall_mem_singleton.mpr (hne (by omega) hc)
  -- All bytes of a longer sequence are at least 0x80.
  split
  · simp only [List.forall_mem_cons]
    exact ⟨hne (by omega) (by omega), hne (by omega) (by omega), nofun⟩
  split
  · simp only [List.forall_mem_cons]
    exact ⟨hne (by omega) (by omega), hne (by omega) (by omega), hne (by omega) (by omega), nofun⟩
  · simp only [List.forall_mem_cons]
    exact ⟨hne (by omega) (by omega), hne (by omega) (by omega), hne (by omega) (by omega), hne (by omega) (by omega),
      nofun⟩

end Utf8
end Crunch
