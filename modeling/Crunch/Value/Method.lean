import Crunch.Collection
import Crunch.Row
import Crunch.Text.Offset

/-!
# Crunch.Value.Method

Methods of literals, byte arrays, collections and tuples.

* `Member.isMutator`: whether a method changes its receiver.
* `Value.access`: the result of a method that only reads.
* `Value.mutate`: the receiver after a method that changes it, and whether the method failed. A
  failed method may still have given a type to an untyped collection.

Positions in a literal count characters. Its methods work on its bytes, from the byte offset of the
character on.
-/

namespace Crunch

/-- Whether a method changes its receiver. -/
def Member.isMutator : Member → Bool
  | .setField _ => true
  | .named name => ["insert", "put", "delete", "append"].contains name

namespace Value

/-- The error for a method that the receiver does not have. -/
def noMethod (v : Value) (m : Member) : Fault.Cause :=
  if v.isNull then .nullValue else .noMethod v.type m.text none

/-- The arguments, if there are so many. -/
def expectArguments (m : Member) (args : List Value) (n : Nat) : Except Fault.Cause Unit :=
  if args.length = n then .ok () else .error (.argumentCount m.text)

/-- How many characters, bytes, elements or fields. -/
def countOf (v : Value) (m : Member) : Except Fault.Cause Nat :=
  match v with
  | .literal s => .ok s.length
  | .tabchar bytes => .ok bytes.length
  | .collection _ items => .ok items.length
  | .tuple fields _ => .ok fields.length
  | v => .error (v.noMethod m)

/-- The character code, byte or element at a position. -/
def atPosition (v : Value) (i : Int64) (m : Member) : Except Fault.Cause Value :=
  match v with
  | .literal s => (elementPosition i s.length).map fun p =>
    .integer (lengthOf ((Text.charAt? s (Text.offset s.toList p)).getD '\x00').toNat)
  | .tabchar bytes => (elementPosition i bytes.length).map fun p =>
    .integer (lengthOf (bytes.getD p 0).toNat)
  | .collection e items => Collection.get ⟨e, items⟩ i
  | v => .error (v.noMethod m)

/-- Whether single items can be read by their position. -/
def isSequence : Value → Bool
  | .literal _ | .tabchar _ | .collection _ _ => true
  | _ => false

/-- The result of a method that only reads. -/
def access (v : Value) (m : Member) (args : List Value) : Except Fault.Cause Value :=
  if m = .named "count" then do
    expectArguments m args 0
    let n ← v.countOf m
    return .integer (lengthOf n)
  else if m = .named "at" ∧ v.isSequence then do
    expectArguments m args 1
    let i ← (args.headD default).integer?
    v.atPosition i m
  else .error (v.noMethod m)

/-- The text that an item adds to a literal. -/
def literalItem : Value → Except Fault.Cause (List Char)
  | .integer n => (narrowCharacter n).map ([·])
  | .literal s => .ok s.toList
  | v => .error (.mismatch (.expected "a character code or a literal" v.type))

/-- The bytes that an item adds to a byte array. -/
def bytesItem : Value → Except Fault.Cause (List UInt8)
  | .integer n => (byte n).map ([·])
  | .literal s => .ok (Utf8.encode s)
  | .tabchar bytes => .ok bytes
  | v => .error (.mismatch (.expected "a byte, a literal or a tabchar" v.type))

/-- Some items with further ones put in front of a position. -/
def inserted {α : Type} (items : List α) (i : Int64) (more : Except Fault.Cause (List α)) :
    Except Fault.Cause (List α) := do
  let p ← gapPosition i items.length
  let more ← more
  return items.take p ++ more ++ items.drop p

/-- Some items with one of them replaced. -/
def replaced {α : Type} (items : List α) (i : Int64) (item : Except Fault.Cause α) :
    Except Fault.Cause (List α) := do
  let p ← elementPosition i items.length
  let x ← item
  return items.set p x

/-- Some items with one of them removed. -/
def erased {α : Type} (items : List α) (i : Int64) : Except Fault.Cause (List α) :=
  (elementPosition i items.length).map items.eraseIdx

/-- A text with the bytes from one offset up to another one replaced. A text that this would cut inside a
character stays as it is. -/
def spliced (s : String) (start stop : Nat) (more : List Char) : String :=
  (Text.splice? s start stop (String.ofList more)).getD s

/-- The offset behind the character that starts at an offset. -/
def pastChar (s : String) (start : Nat) : Nat := start + ((Text.charAt? s start).map Char.utf8Size).getD 0

/-- A literal with a text put in front of a character. -/
def insertedText (s : String) (i : Int64) (more : Except Fault.Cause (List Char)) : Except Fault.Cause String := do
  let p ← gapPosition i s.length
  let more ← more
  let start := Text.offset s.toList p
  return spliced s start start more

/-- A literal with one character replaced. -/
def replacedText (s : String) (i : Int64) (c : Except Fault.Cause Char) : Except Fault.Cause String := do
  let p ← elementPosition i s.length
  let c ← c
  let start := Text.offset s.toList p
  return spliced s start (pastChar s start) [c]

/-- A literal with one character removed. -/
def erasedText (s : String) (i : Int64) : Except Fault.Cause String :=
  (elementPosition i s.length).map fun p =>
    let start := Text.offset s.toList p
    spliced s start (pastChar s start) []

/-- The receiver that a computation gives, or the old one with the error. -/
def orUnchanged (v : Value) : Except Fault.Cause Value → Value × Except Fault.Cause Unit
  | .ok w => (w, .ok ())
  | .error c => (v, .error c)

/-- A collection after one of its operations. -/
def ofOperation {α : Type} (r : Collection × Except Fault.Cause α) : Value × Except Fault.Cause Unit :=
  (r.1.value, r.2.map fun _ => ())

/-- Puts an item in front of a position. A whole collection of the type of the receiver goes in
element by element. -/
def insert (v : Value) (i : Int64) (item : Value) (m : Member) : Value × Except Fault.Cause Unit :=
  match v with
  | .literal s => v.orUnchanged ((insertedText s i (literalItem item)).map .literal)
  | .tabchar bytes => v.orUnchanged ((inserted bytes i (bytesItem item)).map .tabchar)
  | .collection e items =>
    let c : Collection := ⟨e, items⟩
    match item with
    | .collection e' items' =>
      if c.isSpliceable item.type then ofOperation (c.splice i ⟨e', items'⟩) else ofOperation (c.insert i item)
    | _ => ofOperation (c.insert i item)
  | v => (v, .error (v.noMethod m))

/-- Replaces the item at a position. -/
def put (v : Value) (i : Int64) (item : Value) (m : Member) : Value × Except Fault.Cause Unit :=
  match v with
  | .literal s => v.orUnchanged ((replacedText s i (item.integer?.bind narrowCharacter)).map .literal)
  | .tabchar bytes => v.orUnchanged ((replaced bytes i (item.integer?.bind byte)).map .tabchar)
  | .collection e items => ofOperation (Collection.put ⟨e, items⟩ i item)
  | v => (v, .error (v.noMethod m))

/-- Removes the item at a position. -/
def delete (v : Value) (i : Int64) (m : Member) : Value × Except Fault.Cause Unit :=
  match v with
  | .literal s => v.orUnchanged ((erasedText s i).map .literal)
  | .tabchar bytes => v.orUnchanged ((erased bytes i).map .tabchar)
  | .collection e items => ofOperation (Collection.remove ⟨e, items⟩ i)
  | v => (v, .error (v.noMethod m))

/-- Puts an item behind the last one. -/
def append (v : Value) (item : Value) (m : Member) : Value × Except Fault.Cause Unit :=
  match v.countOf m with
  | .ok n => v.insert (lengthOf n) item m
  | .error c => (v, .error c)

/-- Runs a step on an index, if the argument is one. -/
def withIndex (v index : Value) (step : Int64 → Value × Except Fault.Cause Unit) :
    Value × Except Fault.Cause Unit :=
  match index.integer? with
  | .ok i => step i
  | .error c => (v, .error c)

/-- The receiver after a method that changes it, and whether the method failed. -/
def mutate (v : Value) (m : Member) (args : List Value) : Value × Except Fault.Cause Unit :=
  match m, args with
  | .setField p, [w] =>
    v.orUnchanged do
      let r ← Row.ofValue? v
      let r ← r.set p w
      return r.value
  | .named "insert", [index, item] => v.withIndex index fun i => v.insert i item m
  | .named "put", [index, item] => v.withIndex index fun i => v.put i item m
  | .named "append", [item] => v.append item m
  | .named "delete", [index] => v.withIndex index fun i => v.delete i m
  | m, _ => if m.isMutator then (v, .error (.argumentCount m.text)) else (v, .error (v.noMethod m))

end Value
end Crunch
