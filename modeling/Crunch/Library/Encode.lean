import Crunch.Count
import Crunch.Encoding.Base64
import Crunch.Encoding.Digest
import Crunch.Value

/-!
# Crunch.Library.Encode

Functions between bytes, texts and numbers.
-/

namespace Crunch
namespace Library

/-- The bytes of a literal or byte array. -/
def bytesOf : Value → Except Fault.Cause (List UInt8)
  | .literal s => .ok (Utf8.encode s)
  | v => v.tabchar?

/-- Hexadecimal digits of an integer. -/
def hex (v : Value) (width : Option Value) : Except Fault.Cause Value := do
  let n ← v.integer?
  let w ← match width with
    | some w => count (← w.integer?) "hex width"
    | none => pure 0
  return .literal (String.ofList (Digest.hexDigits n w))

/-- The range of the hash when none is given. -/
def hashRange : Int64 := 4294967295

/-- The hash of a text or byte array, below a bound. A remainder beyond all integers would become the
largest one. -/
def hash (v : Value) (bound : Option Value) : Except Fault.Cause Value := do
  let bytes ← bytesOf v
  let m ← match bound with
    | some m => m.integer?
    | none => pure hashRange
  if 0 < m.toInt then
    let h := (Digest.djb2 bytes).toNat % m.toInt.toNat
    return .integer ((Decimal.fit? h).getD Int64.maxValue)
  else .error (.outOfRange (.hashSize m))

def base64Encode (v : Value) : Except Fault.Cause Value :=
  (bytesOf v).map fun bytes => .literal (String.ofList (Base64.encode bytes))

def base64Decode (v : Value) : Except Fault.Cause Value := do
  let s ← v.literal?
  match Base64.decode? s.toList with
  | some bytes => return .tabchar bytes
  | none => .error (.outOfRange .malformedBase64)

/-- The bytes of a literal, or a number of zero bytes. -/
def toBytes (v : Value) : Except Fault.Cause Value :=
  match v with
  | .literal s => .ok (.tabchar (Utf8.encode s))
  | v => do
    let n ← count (← v.integer?) "byte count"
    let n ← room n 1 "byte count"
    return .tabchar (List.replicate n 0)

end Library
end Crunch
