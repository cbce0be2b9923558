import Crunch.Proofs.Utf8
import Crunch.Text.Offset

/-!
# Crunch.Proofs.Offset

Where a text can be cut.

* `Text.before?_offset`, `Text.from?_offset`: at the offset of a character, a text is cut into the
  characters before it and the characters from it on.
* `Text.isSome_before?`, `Text.isSome_from?`: there is no other place to cut it.
* `Text.splice?_offset`: a text spliced between characters.
-/

namespace Crunch
namespace Text

open Utf8

theorem foldl_utf8Size (cs : List Char) (n : Nat) :
    cs.foldl (fun n c => n + c.utf8Size) n = n + (spell cs).length := by
  induction cs generalizing n with
  | nil => rfl
  | cons c cs ih =>
    rw [List.foldl_cons, ih, spell_cons, List.length_append, String.length_utf8EncodeChar, Nat.add_assoc]

theorem length_spell_take (cs : List Char) (p : Nat) : (spell (cs.take p)).length = offset cs p := by
  rw [offset, foldl_utf8Size, Nat.zero_add]

theorem spell_take_drop (cs : List Char) (p : Nat) : spell (cs.take p) ++ spell (cs.drop p) = spell cs := by
  rw [← spell_append, List.take_append_drop]

theorem offset_le (cs : List Char) (p : Nat) : offset cs p ≤ (spell cs).length := by
  rw [← spell_take_drop cs p, List.length_append, length_spell_take]
  exact Nat.le_add_right _ _

theorem offset_succ {cs : List Char} {p : Nat} {c : Char} (h : cs[p]? = some c) :
    offset cs (p + 1) = offset cs p + c.utf8Size := by
  rw [← length_spell_take, ← length_spell_take, List.take_add_one, h, spell_append, List.length_append,
    Option.toList_some, spell_cons, spell_nil, List.append_nil, String.length_utf8EncodeChar]

/-! ## Between characters -/

section
variable (s : String) (p q : Nat)

theorem before?_offset : before? s (offset s.toList p) = some (String.ofList (s.toList.take p)) := by
  rw [before?, encode_eq_spell, if_pos (offset_le _ p), ← spell_take_drop s.toList p,
    List.take_left' (length_spell_take _ p), decode_spell]

theorem from?_offset : from? s (offset s.toList p) = some (String.ofList (s.toList.drop p)) := by
  rw [from?, encode_eq_spell, if_pos (offset_le _ p), ← spell_take_drop s.toList p,
    List.drop_left' (length_spell_take _ p), decode_spell]

theorem charAt?_offset : charAt? s (offset s.toList p) = s.toList[p]? := by
  rw [charAt?, from?_offset, Option.bind_some, String.toList_ofList, List.head?_drop]

theorem splice?_offset (more : List Char) :
    splice? s (offset s.toList p) (offset s.toList q) (String.ofList more) =
      some (String.ofList (s.toList.take p ++ more ++ s.toList.drop q)) := by
  rw [splice?, before?_offset, from?_offset, String.ofList_append, String.ofList_append]

end

/-! ## Inside characters -/

/-- A place among the bytes of some characters is in front of one of them, at the end, or inside one. -/
theorem offset_or_inside (cs : List Char) {i : Nat} (hi : i ≤ (spell cs).length) :
    (∃ p ≤ cs.length, i = offset cs p) ∨
      ∃ front c back k, cs = front ++ c :: back ∧ i = (spell front).length + k ∧ 0 < k ∧
        k < (String.utf8EncodeChar c).length := by
  induction cs generalizing i with
  | nil =>
    rw [spell_nil, List.length_nil, Nat.le_zero] at hi
    exact .inl ⟨0, Nat.le_refl 0, hi⟩
  | cons c cs ih =>
    rw [spell_cons, List.length_append] at hi
    by_cases hc : i < (String.utf8EncodeChar c).length
    · rcases Nat.eq_zero_or_pos i with h0 | hpos
      · exact .inl ⟨0, Nat.zero_le _, h0⟩
      · exact .inr ⟨[], c, cs, i, rfl, (Nat.zero_add i).symm, hpos, hc⟩
    · have hsplit : i = (String.utf8EncodeChar c).length + (i - (String.utf8EncodeChar c).length) := by omega
      rcases ih (show i - (String.utf8EncodeChar c).length ≤ (spell cs).length by omega) with
        ⟨p, hp, he⟩ | ⟨front, d, back, k, rfl, he, hpos, hk⟩
      · refine .inl ⟨p + 1, Nat.succ_le_succ hp, ?_⟩
        rw [hsplit, he, ← length_spell_take, ← length_spell_take, List.take_succ_cons, spell_cons, List.length_append]
      · refine .inr ⟨c :: front, d, back, k, rfl, ?_, hpos, hk⟩
        rw [hsplit, he, spell_cons, List.length_append, Nat.add_assoc]

/-- The bytes up to a place inside a character spell no text, and neither do those from there on. -/
theorem decode_inside (front back : List Char) {c : Char} {k : Nat} (hpos : 0 < k)
    (hk : k < (String.utf8EncodeChar c).length) :
    decode? ((spell (front ++ c :: back)).take ((spell front).length + k)) = none ∧
      decode? ((spell (front ++ c :: back)).drop ((spell front).length + k)) = none := by
  have hbytes : spell (front ++ c :: back) = spell front ++ (String.utf8EncodeChar c ++ spell back) := by
    rw [spell_append, spell_cons]
  have hle : k ≤ (String.utf8EncodeChar c).length := Nat.le_of_lt hk
  constructor
  · rw [hbytes, List.take_length_add_append, List.take_append_of_le_length hle, decode?, scan_spell_append,
      scan_unfinished hpos hk, allChars_eq_none (List.mem_append_right _ List.mem_cons_self), Option.map_none]
  · rw [hbytes, List.drop_length_add_append, List.drop_append_of_le_length hle, decode?,
      allChars_eq_none (scan_misplaced hpos hk _), Option.map_none]

/-- A text has a part up to a place exactly if this is the offset of a character or the end. -/
theorem isSome_before? (s : String) (i : Nat) :
    (before? s i).isSome = true ↔ ∃ p ≤ s.length, i = offset s.toList p := by
  constructor
  · intro h
    rw [before?, encode_eq_spell] at h
    split at h
    · rename_i hi
      rcases offset_or_inside s.toList hi with hp | ⟨front, c, back, k, hs, rfl, hpos, hk⟩
      · exact hp
      · rw [hs, (decode_inside front back hpos hk).1] at h
        cases h
    · cases h
  · rintro ⟨p, -, rfl⟩
    rw [before?_offset, Option.isSome_some]

/-- A text has a part from a place on exactly if this is the offset of a character or the end. -/
theorem isSome_from? (s : String) (i : Nat) :
    (from? s i).isSome = true ↔ ∃ p ≤ s.length, i = offset s.toList p := by
  constructor
  · intro h
    rw [from?, encode_eq_spell] at h
    split at h
    · rename_i hi
      rcases offset_or_inside s.toList hi with hp | ⟨front, c, back, k, hs, rfl, hpos, hk⟩
      · exact hp
      · rw [hs, (decode_inside front back hpos hk).2] at h
        cases h
    · cases h
  · rintro ⟨p, -, rfl⟩
    rw [from?_offset, Option.isSome_some]

end Text
end Crunch
