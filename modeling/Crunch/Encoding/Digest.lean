/-!
# Crunch.Encoding.Digest

Two small encodings of numbers and bytes.

* `Digest.djb2`: the multiply-by-33 hash on 64-bit words.
* `Digest.hexDigits`: the bits of an integer in base sixteen, padded to a width.
-/

namespace Crunch
namespace Digest

/-- Start value of the hash. -/
def djb2Seed : UInt64 := 5381

/-- `h * 33 + byte` for each byte in turn, modulo `2 ^ 64`. -/
def djb2 (bytes : List UInt8) : UInt64 :=
  bytes.foldl (fun h b => h * 33 + b.toUInt64) djb2Seed

/-- Nibbles of a 64-bit word. -/
def maxHexDigits : Nat := 16

/-- The lowest `remaining` nibbles, highest first. Leading zeros are left out as long as more
nibbles remain than the width asks for. -/
def nibblesFrom (bits width : Nat) : Nat → Bool → List Char
  | 0, _ => []
  | remaining + 1, seen =>
    let nibble := bits / Nat.pow 16 remaining % 16
    let seen := seen || nibble != 0 || remaining + 1 ≤ width
    if seen then Nat.digitChar nibble :: nibblesFrom bits width remaining seen
    else nibblesFrom bits width remaining seen

/-- Lower case digits of the two's complement bits, at least one and at least `width`, which counts
up to sixteen. -/
def hexDigits (n : Int64) (width : Nat) : List Char :=
  nibblesFrom n.toUInt64.toNat (max 1 (min width maxHexDigits)) maxHexDigits false

end Digest
end Crunch
