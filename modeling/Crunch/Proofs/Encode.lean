import Crunch.Exec
import Crunch.Pattern.Bundled
import Crunch.Proofs.Base64
import Crunch.Proofs.Utf8

/-!
# Crunch.Proofs.Encode

Texts against their bytes, through the functions and the operator that scripts have for them.

* `Builtin.on`, `Run.sum`: a function applied to values, and a sum, in place or not.
* `Utf8.isValid_iff_spell`: bytes are UTF-8 exactly if they are those of some characters.
* `Utf8.encode_decodeLossy_iff`: only such bytes come back from their text.
* `Builtin.TextsAreBytes`, `Builtin.texts_are_bytes`: what is done to a text is done to its bytes.
-/

namespace Crunch

/-! ## Valid bytes -/

namespace Utf8

variable {bytes : List UInt8}

/-- Bytes are UTF-8 if they are those of some characters. -/
theorem isValid_iff_spell : (ByteArray.mk bytes.toArray).IsValidUTF8 ↔ ∃ cs, bytes = spell cs := by
  have hspell (cs : List Char) : cs.utf8Encode.data.toList = spell cs := by
    rw [List.utf8Encode, List.data_toByteArray]
    rfl
  constructor
  · rintro ⟨cs, hcs⟩
    refine ⟨cs, ?_⟩
    rw [← hspell, ← hcs]
  · rintro ⟨cs, rfl⟩
    refine ⟨cs, ?_⟩
    rw [← hspell, Array.toArray_toList]

/-- Only valid bytes are those of their text. -/
theorem encode_decodeLossy_iff : encode (decodeLossy bytes) = bytes ↔ (ByteArray.mk bytes.toArray).IsValidUTF8 := by
  rw [isValid_iff_spell]
  constructor
  · intro h
    refine ⟨(decodeLossy bytes).toList, ?_⟩
    rw [← encode_eq_spell, h]
  · rintro ⟨cs, rfl⟩
    rw [decodeLossy_spell, encode_ofList]

/-- A byte that starts nothing comes back as three. -/
example : encode (decodeLossy [0x61, 0xFF]) = [0x61, 0xEF, 0xBF, 0xBD] := rfl

end Utf8

/-! ## Functions of values -/

/-- A sum of two values. A text on the left that belongs to the expression is extended in place. -/
def Run.sum (line : Nat) (inPlace : Bool) (l r : Value) : Run Value :=
  if inPlace then combine line .add (.temporary l) (.temporary r) else binary line .add l r

namespace Builtin

/-- A call of a function with values that are in no variable. -/
def on (line : Nat) (b : Builtin) (vs : List Value) : Run Value := b.call line (vs.map fun v => ⟨v, none⟩)

variable {line : Nat}

theorem on_bytes (s : String) : bytes.on line [.literal s] = pure (.tabchar (Utf8.encode s)) := rfl

theorem on_str (x : List UInt8) : str.on line [.tabchar x] = pure (.literal (Utf8.decodeLossy x)) := rfl

theorem on_b64enc_literal (s : String) :
    b64enc.on line [.literal s] = pure (.literal (String.ofList (Base64.encode (Utf8.encode s)))) := rfl

theorem on_b64enc_tabchar (x : List UInt8) :
    b64enc.on line [.tabchar x] = pure (.literal (String.ofList (Base64.encode x))) := rfl

theorem on_b64dec {cs : List Char} {x : List UInt8} (h : Base64.decode? cs = some x) :
    b64dec.on line [.literal (String.ofList cs)] = pure (.tabchar x) := by
  have hcall : b64dec.on line [.literal (String.ofList cs)] =
      Run.lift line (Library.base64Decode (.literal (String.ofList cs))) := rfl
  have hdecode : Library.base64Decode (.literal (String.ofList cs)) = .ok (.tabchar x) := by
    simp only [Library.base64Decode, Value.literal?, bind, Except.bind, String.toList_ofList, h]
    rfl
  rw [hcall, hdecode]
  rfl

/-- A text is hashed as its bytes, whatever is given as the bound. -/
theorem on_hash (s : String) (ms : List Value) :
    hash.on line (.tabchar (Utf8.encode s) :: ms) = hash.on line (.literal s :: ms) := by
  rcases ms with _ | ⟨m, _ | ⟨m', ms⟩⟩
  · rfl
  · rfl
  · rfl

theorem sum_texts (inPlace : Bool) (s t : String) :
    Run.sum line inPlace (.literal s) (.literal t) = pure (.literal (s ++ t)) := by
  cases inPlace with
  | false => rfl
  | true => rfl

theorem sum_bytes (inPlace : Bool) (x y : List UInt8) :
    Run.sum line inPlace (.tabchar x) (.tabchar y) = pure (.tabchar (x ++ y)) := by
  cases inPlace with
  | false => rfl
  | true => rfl

theorem sum_bytes_text (inPlace : Bool) (x : List UInt8) (t : String) :
    Run.sum line inPlace (.tabchar x) (.literal t) = pure (.tabchar (x ++ Utf8.encode t)) := by
  cases inPlace with
  | false => rfl
  | true => rfl

/-! ## The correspondence -/

/-- What is done to a text is done to its bytes. Both sides of an equation are computations: they
end alike, in a value or an error, and leave the same state. -/
structure TextsAreBytes (line : Nat) : Prop where
  /-- A text comes back from its bytes. -/
  str_bytes (s : String) :
    (do let x ← bytes.on line [.literal s]; str.on line [x]) = pure (.literal s)
  /-- The bytes of a sum are the sum of the bytes. -/
  bytes_sum (inPlace : Bool) (s t : String) :
    (do let u ← Run.sum line inPlace (.literal s) (.literal t); bytes.on line [u]) =
      do let x ← bytes.on line [.literal s]; let y ← bytes.on line [.literal t]; Run.sum line inPlace x y
  /-- The text on the right of a sum with bytes counts as its bytes. -/
  bytes_sum_text (inPlace : Bool) (s t : String) :
    (do let u ← Run.sum line inPlace (.literal s) (.literal t); bytes.on line [u]) =
      do let x ← bytes.on line [.literal s]; Run.sum line inPlace x (.literal t)
  b64enc_bytes (s : String) :
    (do let x ← bytes.on line [.literal s]; b64enc.on line [x]) = b64enc.on line [.literal s]
  b64dec_b64enc (s : String) :
    (do let u ← b64enc.on line [.literal s]; b64dec.on line [u]) = bytes.on line [.literal s]
  hash_bytes (s : String) (ms : List Value) :
    (do let x ← bytes.on line [.literal s]; hash.on line (x :: ms)) = hash.on line (.literal s :: ms)
  /-- Bytes come back from their text exactly if they are UTF-8. -/
  bytes_str (x : List UInt8) :
    (do let u ← str.on line [.tabchar x]; bytes.on line [u]) = pure (.tabchar x) ↔
      (ByteArray.mk x.toArray).IsValidUTF8

/-- A computation of a value determines the value. -/
theorem pure_inj {v w : Value} : (pure v : Run Value) = pure w ↔ v = w := by
  constructor
  · intro h
    have hstate := congrFun h (State.fresh .bundled ⟨[], 0, []⟩ [] ⟨[], []⟩)
    cases hstate
    rfl
  · rintro rfl
    rfl

theorem texts_are_bytes (line : Nat) : TextsAreBytes line where
  str_bytes s := by
    have hback : Utf8.decodeLossy (Utf8.encode s) = s := by
      rw [Utf8.encode_eq_spell, Utf8.decodeLossy_spell, String.ofList_toList]
    rw [on_bytes, pure_bind, on_str, hback]
  bytes_sum inPlace s t := by
    rw [sum_texts, pure_bind, on_bytes, on_bytes, pure_bind, on_bytes, pure_bind, sum_bytes, Utf8.encode_append]
  bytes_sum_text inPlace s t := by
    rw [sum_texts, pure_bind, on_bytes, on_bytes, pure_bind, sum_bytes_text, Utf8.encode_append]
  b64enc_bytes s := by
    rw [on_bytes, pure_bind, on_b64enc_tabchar, on_b64enc_literal]
  b64dec_b64enc s := by
    rw [on_b64enc_literal, pure_bind, on_b64dec (Base64.decode?_encode _), on_bytes]
  hash_bytes s ms := by
    rw [on_bytes, pure_bind, on_hash]
  bytes_str x := by
    rw [on_str, pure_bind, on_bytes, pure_inj, ← Utf8.encode_decodeLossy_iff]
    constructor
    · intro h
      exact Value.tabchar.inj h
    · intro h
      rw [h]

end Builtin
end Crunch
