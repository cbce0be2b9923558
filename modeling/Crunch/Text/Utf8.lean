/-!
# Crunch.Text.Utf8

Text as bytes.

* `Utf8.encode`: the bytes of a text.
* `Utf8.scan`: the characters that a byte string spells, with `none` in place of each malformed
  sequence. A malformed sequence is the longest start of a well-formed one that is not completed,
  or a single byte that starts none.
* `Utf8.decode?`: the text of well-formed bytes.
* `Utf8.decodeLossy`: any bytes, with a replacement character for each malformed sequence.
-/

namespace Crunch
namespace Utf8

/-- The bytes of a text. -/
def encode (s : String) : List UInt8 := s.toByteArray.data.toList

/-- A byte `10xxxxxx`. -/
def isContinuation (b : UInt8) : Bool := 0x80 ≤ b && b ≤ 0xBF

/-- Range of the byte after `b`, where overlong forms, surrogates and numbers past the last
character are left out. -/
def secondRange (b : UInt8) : UInt8 × UInt8 :=
  if b = 0xE0 then (0xA0, 0xBF)
  else if b = 0xED then (0x80, 0x9F)
  else if b = 0xF0 then (0x90, 0xBF)
  else if b = 0xF4 then (0x80, 0x8F)
  else (0x80, 0xBF)

/-- Whether `c` may follow `b`. -/
def isSecond (b c : UInt8) : Bool :=
  let (low, high) := secondRange b
  low ≤ c && c ≤ high

/-- The low six bits. -/
def payload (b : UInt8) : Nat := b.toNat % 64

/-- Length of the sequence that starts with `b`; zero when none does. -/
def sequenceLength (b : UInt8) : Nat :=
  if b < 0x80 then 1
  else if b < 0xC2 then 0
  else if b < 0xE0 then 2
  else if b < 0xF0 then 3
  else if b < 0xF5 then 4
  else 0

/-- Characters and malformed sequences, in order. -/
def scan : List UInt8 → List (Option Char)
  | [] => []
  | b :: rest =>
    if sequenceLength b = 1 then some (Char.ofNat b.toNat) :: scan rest
    else if sequenceLength b = 0 then none :: scan rest
    else
      match rest with
      | [] => [none]
      | c :: rest₁ =>
        if !isSecond b c then none :: scan (c :: rest₁)
        else if sequenceLength b = 2 then
          some (Char.ofNat (b.toNat % 32 * 64 + payload c)) :: scan rest₁
        else
          match rest₁ with
          | [] => [none]
          | d :: rest₂ =>
            if !isContinuation d then none :: scan (d :: rest₂)
            else if sequenceLength b = 3 then
              some (Char.ofNat ((b.toNat % 16 * 64 + payload c) * 64 + payload d)) :: scan rest₂
            else
              match rest₂ with
              | [] => [none]
              | e :: rest₃ =>
                if !isContinuation e then none :: scan (e :: rest₃)
                else
                  some (Char.ofNat
                    (((b.toNat % 8 * 64 + payload c) * 64 + payload d) * 64 + payload e))
                    :: scan rest₃

/-- All the characters, when no sequence is malformed. -/
def allChars : List (Option Char) → Option (List Char)
  | [] => some []
  | some c :: rest => (allChars rest).map (c :: ·)
  | none :: _ => none

/-- The text of well-formed bytes. -/
def decode? (bytes : List UInt8) : Option String := (allChars (scan bytes)).map String.ofList

/-- The character that stands for a malformed sequence. -/
def replacement : Char := Char.ofNat 0xFFFD

/-- The text of any bytes. -/
def decodeLossy (bytes : List UInt8) : String :=
  String.ofList ((scan bytes).map fun c => c.getD replacement)

end Utf8
end Crunch
