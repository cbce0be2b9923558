import Crunch.Ty.Domain
import Crunch.Value.Coerce

/-!
# Crunch.Collection

Sequences whose elements share one declared type.

* `Collection.ofValues`: the collection of a list of values, with their common type.
* `Collection.get`, `insert`, `splice`, `put`, `remove`: one element, or a whole collection, by its
  position.
* `Collection.fit`: a value as an element. An untyped collection adopts the type of the first
  value that is stored, and keeps it even if the operation fails afterwards; so the operations that
  store give the collection in both cases.
* `Collection.retype`: the collection with all elements converted.
-/

namespace Crunch

structure Collection where
  element : Ty
  items : List Value

namespace Collection

/-- The collection as a value. -/
def value (c : Collection) : Value := .collection c.element c.items

def ofValue? : Value → Except Fault.Cause Collection
  | .collection e items => .ok ⟨e, items⟩
  | v => .error (v.mismatch "collection")

/-- The common type of the elements so far with the types of further ones. -/
def unifyAll (e : Ty) : List Value → Except Fault.Cause Ty
  | [] => .ok e
  | v :: vs =>
    match Ty.unify? e v.type with
    | some e' => unifyAll e' vs
    | none => .error (.mismatch (.element e v.type))

/-- The collection of some values, converted to their common type. -/
def ofValues (vs : List Value) : Except Fault.Cause Collection :=
  match unifyAll Ty.untyped vs with
  | .error c => .error c
  | .ok e => (Value.coerceAll vs e).map (⟨e, ·⟩)

/-- The type of the collection itself. -/
def type (c : Collection) : Ty := c.element.arrayOf

def size (c : Collection) : Nat := c.items.length

/-- The element at a position. -/
def get (c : Collection) (i : Int64) : Except Fault.Cause Value :=
  match elementPosition i c.size with
  | .error x => .error x
  | .ok at_ =>
    match c.items[at_]? with
    | some v => .ok v
    | none => .error (.indexRange i c.size)

/-- The type of the elements once a value has been stored. -/
def adopted (e : Ty) (v : Value) : Ty :=
  if e.kind = .noType ∧ !v.isNull ∧ v.type.level = e.level then v.type else e

/-- A value as an element, with the type of the elements afterwards. -/
def fit (e : Ty) (v : Value) : Ty × Except Fault.Cause Value :=
  let e' := adopted e v
  (e', v.coerce e')

/-- Values as elements, in order, up to the first that is none. -/
def fitAll (e : Ty) : List Value → Ty × Except Fault.Cause (List Value)
  | [] => (e, .ok [])
  | v :: vs =>
    match fit e v with
    | (e', .error c) => (e', .error c)
    | (e', .ok w) =>
      match fitAll e' vs with
      | (e'', .error c) => (e'', .error c)
      | (e'', .ok ws) => (e'', .ok (w :: ws))

/-- Whether a value of this type is a whole collection that can be spliced in. -/
def isSpliceable (c : Collection) (t : Ty) : Bool :=
  t.level == c.element.level + 1 && c.type.accepts t

/-- Puts new elements in front of a position, which may be the end. -/
def insertAll (c : Collection) (i : Int64) (vs : List Value) : Collection × Except Fault.Cause Unit :=
  match gapPosition i c.size with
  | .error x => (c, .error x)
  | .ok at_ =>
    match fitAll c.element vs with
    | (e, .error x) => (⟨e, c.items⟩, .error x)
    | (e, .ok ws) => (⟨e, c.items.take at_ ++ ws ++ c.items.drop at_⟩, .ok ())

/-- Puts one new element in front of a position. -/
def insert (c : Collection) (i : Int64) (v : Value) : Collection × Except Fault.Cause Unit :=
  c.insertAll i [v]

/-- Puts the elements of another collection in front of a position. -/
def splice (c : Collection) (i : Int64) (source : Collection) : Collection × Except Fault.Cause Unit :=
  c.insertAll i source.items

/-- Replaces an element and gives the old one. -/
def put (c : Collection) (i : Int64) (v : Value) : Collection × Except Fault.Cause Value :=
  match elementPosition i c.size with
  | .error x => (c, .error x)
  | .ok at_ =>
    match fit c.element v with
    | (e, .error x) => (⟨e, c.items⟩, .error x)
    | (e, .ok w) => (⟨e, c.items.set at_ w⟩, .ok (c.items.getD at_ default))

/-- Removes an element and gives it. -/
def remove (c : Collection) (i : Int64) : Collection × Except Fault.Cause Value :=
  match elementPosition i c.size with
  | .error x => (c, .error x)
  | .ok at_ => (⟨c.element, c.items.eraseIdx at_⟩, .ok (c.items.getD at_ default))

/-- The collection with its elements converted to a type. -/
def retype (c : Collection) (e : Ty) : Except Fault.Cause Collection :=
  (Value.coerceAll c.items e).map (⟨e, ·⟩)

end Collection
end Crunch
