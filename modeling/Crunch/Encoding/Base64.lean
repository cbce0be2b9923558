/-!
# Crunch.Encoding.Base64

Bytes written with 64 symbols, three bytes in four symbols, the last group padded with `=`.

* `encode`: always padded.
* `decode?`: the padding may be missing as a whole; low bits of the last symbol that belong to no
  byte are not looked at.
-/

namespace Crunch
namespace Base64

/-- The symbols in the order of their values. -/
def alphabet : List Char :=
  "ABCDEFGHIJKLMNOPQRSTUVWXYZabcdefghijklmnopqrstuvwxyz0123456789+/".toList

/-- The symbol of a value below 64. -/
def symbol (n : Nat) : Char := alphabet.getD (n % 64) '='

/-- The value of a symbol. -/
def value? (c : Char) : Option Nat := alphabet.findIdx? (· == c)

/-- Padded text of a byte string. -/
def encode : List UInt8 → List Char
  | [] => []
  | [a] => [symbol (a.toNat / 4), symbol (a.toNat % 4 * 16), '=', '=']
  | [a, b] =>
    [symbol (a.toNat / 4), symbol (a.toNat % 4 * 16 + b.toNat / 16), symbol (b.toNat % 16 * 4), '=']
  | a :: b :: c :: rest =>
    symbol (a.toNat / 4) :: symbol (a.toNat % 4 * 16 + b.toNat / 16)
      :: symbol (b.toNat % 16 * 4 + c.toNat / 64) :: symbol (c.toNat % 64) :: encode rest

/-- Bytes of a list of symbol values; a single value left over gives none. -/
def ofValues : List Nat → List UInt8
  | p :: q :: r :: s :: rest =>
    UInt8.ofNat (p * 4 + q / 16) :: UInt8.ofNat (q % 16 * 16 + r / 4)
      :: UInt8.ofNat (r % 4 * 64 + s) :: ofValues rest
  | [p, q, r] => [UInt8.ofNat (p * 4 + q / 16), UInt8.ofNat (q % 16 * 16 + r / 4)]
  | [p, q] => [UInt8.ofNat (p * 4 + q / 16)]
  | _ => []

/-- The values of a list of symbols. -/
def values? : List Char → Option (List Nat)
  | [] => some []
  | c :: rest =>
    match value? c, values? rest with
    | some v, some vs => some (v :: vs)
    | _, _ => none

/-- The text before the padding. -/
def unpadded (cs : List Char) : List Char := (cs.reverse.dropWhile (· == '=')).reverse

/-- Bytes of a text with whole or no padding. -/
def decode? (cs : List Char) : Option (List UInt8) :=
  let body := unpadded cs
  let padding := cs.length - body.length
  if padding > 2 ∨ (padding > 0 ∧ cs.length % 4 ≠ 0) ∨ body.length % 4 = 1 then none
  else (values? body).map ofValues

end Base64
end Crunch
