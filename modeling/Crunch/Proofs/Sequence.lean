import Crunch.Proofs.Coerce
import Crunch.Proofs.Count
import Crunch.Proofs.Method
import Crunch.Proofs.Offset

/-!
# Crunch.Proofs.Sequence

Literals, byte arrays and collections as lists of items.

* `Sequence`: values that are lists of items, with what an argument of a method gives as items.
  `Sequence.literal`, `Sequence.tabchar` and `Sequence.collection` are the three of them.
* `Sequence.Edits`: what a method leaves of its receiver, by the position and the new items.
* `Sequence.Lawful`: the methods are operations on the lists.
* `Sequence.methods_edit_lists`: those of literals, byte arrays and typed collections are, and they cut
  no text inside a character.
-/

namespace Crunch

/-! ## Texts by their characters -/

namespace Value

section
variable (s : String) (i : Int64)

theorem pastChar_offset {p : Nat} (h : p < s.length) :
    pastChar s (Text.offset s.toList p) = Text.offset s.toList (p + 1) := by
  obtain ⟨c, hc⟩ : ∃ c, s.toList[p]? = some c :=
    ⟨_, List.getElem?_eq_getElem (by rwa [String.length_toList])⟩
  rw [pastChar, Text.charAt?_offset, hc, Text.offset_succ hc]
  rfl

theorem insertedText_eq (more : Except Fault.Cause (List Char)) :
    insertedText s i more = (inserted s.toList i more).map String.ofList := by
  unfold insertedText inserted
  rw [String.length_toList]
  cases gapPosition i s.length with
  | error c => rfl
  | ok p =>
    cases more with
    | error c => rfl
    | ok cs =>
      simp only [bind, Except.bind, pure, Except.pure, Except.map, spliced, Text.splice?_offset,
        Option.getD_some]

theorem replacedText_eq (c : Except Fault.Cause Char) :
    replacedText s i c = (replaced s.toList i c).map String.ofList := by
  unfold replacedText replaced
  rw [String.length_toList]
  by_cases hi : 0 ≤ i.toInt ∧ i.toInt < s.length
  · have hp : i.toInt.toNat < s.length := by omega
    simp only [elementPosition, if_pos hi]
    cases c with
    | error c => rfl
    | ok c =>
      simp only [bind, Except.bind, pure, Except.pure, Except.map, spliced, pastChar_offset s hp,
        Text.splice?_offset, Option.getD_some, List.set_eq_take_append_cons_drop, String.length_toList, if_pos hp,
        List.append_assoc, List.singleton_append]
  · simp only [elementPosition, if_neg hi]
    rfl

theorem erasedText_eq : erasedText s i = (erased s.toList i).map String.ofList := by
  unfold erasedText erased
  rw [String.length_toList]
  by_cases hi : 0 ≤ i.toInt ∧ i.toInt < s.length
  · have hp : i.toInt.toNat < s.length := by omega
    simp only [elementPosition, if_pos hi, Except.map, spliced, pastChar_offset s hp, Text.splice?_offset,
      Option.getD_some, List.eraseIdx_eq_take_drop_succ, List.append_nil]
  · simp only [elementPosition, if_neg hi]
    rfl

end

end Value

/-! ## Lists of items -/

/-- Values that are lists of items. -/
structure Sequence (α : Type) where
  /-- The value with these items. -/
  value : List α → Value
  /-- An item as a script reads it. -/
  read : α → Value
  /-- The item that an argument gives for one that is already there. -/
  item? : Value → Option α
  /-- The items that an argument gives to put in between. -/
  items? : Value → Option (List α)

namespace Sequence

/-- Characters with a number from 1 to 255, which scripts can write as integers. -/
def narrow? (n : Int64) : Option Char :=
  if 1 ≤ n.toInt ∧ n.toInt ≤ 255 then some (Char.ofNat n.toInt.toNat) else none

def octet? (n : Int64) : Option UInt8 :=
  if 0 ≤ n.toInt ∧ n.toInt ≤ 255 then some (UInt8.ofNat n.toInt.toNat) else none

/-- Literals are lists of characters. -/
def literal : Sequence Char where
  value cs := .literal (String.ofList cs)
  read c := .integer (Int64.ofNat c.toNat)
  item?
    | .integer n => narrow? n
    | _ => none
  items?
    | .integer n => (narrow? n).map ([·])
    | .literal s => some s.toList
    | _ => none

/-- Byte arrays are lists of bytes. -/
def tabchar : Sequence UInt8 where
  value := .tabchar
  read b := .integer (Int64.ofNat b.toNat)
  item?
    | .integer n => octet? n
    | _ => none
  items?
    | .integer n => (octet? n).map ([·])
    | .literal s => some (s.toList.flatMap String.utf8EncodeChar)
    | .tabchar bytes => some bytes
    | _ => none

/-- Collections are lists of values, converted to the type of the elements. A collection of such a type
goes in element by element. -/
def collection (e : Ty) : Sequence Value where
  value := .collection e
  read v := v
  item? v := (v.coerce e).toOption
  items?
    | .collection e' vs =>
      if e'.level = e.level then
        if e.arrayOf.accepts e'.arrayOf then vs.mapM fun v => (v.coerce e).toOption else none
      else ((Value.collection e' vs).coerce e).toOption.map ([·])
    | v => (v.coerce e).toOption.map ([·])

/-- What a method leaves of a receiver with the items `xs`. At a position that is inside these are the new
items, or the old ones if the argument gives none. At another position they are the old ones, whatever the
argument is. -/
structure Edits {α : Type} (S : Sequence α) (xs : List α) (i : Int64) (inside : Prop) (new : Option (List α))
    (r : Value × Except Fault.Cause Unit) : Prop where
  done (ys : List α) : inside → new = some ys → r = (S.value ys, .ok ())
  unfit : inside → new = none → ∃ c, r = (S.value xs, .error c) ∧ ∀ j n, c ≠ .indexRange j n
  outside : ¬inside → r = (S.value xs, .error (.indexRange i xs.length))

/-- The methods of a kind of sequence are operations on the lists of items. -/
structure Lawful {α : Type} (S : Sequence α) : Prop where
  count (xs : List α) : (S.value xs).access (.named "count") [] = .ok (.integer (lengthOf xs.length))
  at_inside (xs : List α) (i : Int64) (x : α) : 0 ≤ i.toInt → xs[i.toInt.toNat]? = some x →
    (S.value xs).access (.named "at") [.integer i] = .ok (S.read x)
  at_outside (xs : List α) (i : Int64) : ¬(0 ≤ i.toInt ∧ i.toInt < xs.length) →
    (S.value xs).access (.named "at") [.integer i] = .error (.indexRange i xs.length)
  insert (xs : List α) (i : Int64) (v : Value) :
    S.Edits xs i (0 ≤ i.toInt ∧ i.toInt ≤ xs.length)
      ((S.items? v).map fun ys => xs.take i.toInt.toNat ++ ys ++ xs.drop i.toInt.toNat)
      ((S.value xs).mutate (.named "insert") [.integer i, v])
  append (xs : List α) (v : Value) :
    (S.value xs).mutate (.named "append") [v] =
      (S.value xs).mutate (.named "insert") [.integer (lengthOf xs.length), v]
  put (xs : List α) (i : Int64) (v : Value) :
    S.Edits xs i (0 ≤ i.toInt ∧ i.toInt < xs.length) ((S.item? v).map (xs.set i.toInt.toNat))
      ((S.value xs).mutate (.named "put") [.integer i, v])
  delete (xs : List α) (i : Int64) :
    S.Edits xs i (0 ≤ i.toInt ∧ i.toInt < xs.length) (some (xs.eraseIdx i.toInt.toNat))
      ((S.value xs).mutate (.named "delete") [.integer i])

/-! ## Operations on lists -/

/-- A computation that gives what is suitable, and otherwise an error that is about no position. -/
structure Suits {β : Type} (r : Except Fault.Cause β) (o : Option β) : Prop where
  toOption : r.toOption = o
  error (c : Fault.Cause) : r = .error c → ∀ j n, c ≠ .indexRange j n

section
variable {α β : Type} {S : Sequence α} {xs : List α} {i : Int64}

theorem suits_ok (b : β) : Suits (.ok b) (some b) := ⟨rfl, fun c hc => by cases hc⟩

theorem suits_error {c : Fault.Cause} (h : ∀ j n, c ≠ .indexRange j n) :
    Suits (.error c : Except Fault.Cause β) none := by
  refine ⟨rfl, fun d hd => ?_⟩
  cases hd
  exact h

theorem Suits.cases {r : Except Fault.Cause β} {o : Option β} (h : Suits r o) :
    (∃ b, r = .ok b ∧ o = some b) ∨ ∃ c, r = .error c ∧ o = none ∧ ∀ j n, c ≠ .indexRange j n := by
  cases r with
  | ok b => exact .inl ⟨b, rfl, h.toOption.symm⟩
  | error c => exact .inr ⟨c, rfl, h.toOption.symm, h.error c rfl⟩

theorem Suits.map {r : Except Fault.Cause α} {o : Option α} (h : Suits r o) (f : α → β) :
    Suits (r.map f) (o.map f) := by
  rcases h.cases with ⟨a, rfl, rfl⟩ | ⟨c, rfl, rfl, hc⟩
  · exact suits_ok (f a)
  · exact suits_error hc

/-- A step that checks the position first and then takes what the argument gives. -/
theorem edits_of_suits {inside : Prop} {o : Option (List α)} {r : Except Fault.Cause (List α)}
    (hin : inside → Suits r o) (hout : ¬inside → r = .error (.indexRange i xs.length)) :
    S.Edits xs i inside o ((S.value xs).orUnchanged (r.map S.value)) where
  done ys h hys := by
    rcases (hin h).cases with ⟨b, rfl, ho⟩ | ⟨c, -, ho, -⟩
    · cases ho.symm.trans hys
      rfl
    · cases ho.symm.trans hys
  unfit h hnone := by
    rcases (hin h).cases with ⟨b, -, ho⟩ | ⟨c, rfl, -, hc⟩
    · cases ho.symm.trans hnone
    · exact ⟨c, rfl, hc⟩
  outside h := by
    rw [hout h]
    rfl

theorem edits_inserted {more : Except Fault.Cause (List α)} {ys : Option (List α)} (h : Suits more ys) :
    S.Edits xs i (0 ≤ i.toInt ∧ i.toInt ≤ xs.length)
      (ys.map fun ys => xs.take i.toInt.toNat ++ ys ++ xs.drop i.toInt.toNat)
      ((S.value xs).orUnchanged ((Value.inserted xs i more).map S.value)) := by
  refine edits_of_suits (fun hi => ?_) fun hi => ?_
  · rw [Value.inserted, gapPosition, if_pos hi]
    exact h.map fun ys => xs.take i.toInt.toNat ++ ys ++ xs.drop i.toInt.toNat
  · rw [Value.inserted, gapPosition, if_neg hi]
    rfl

theorem edits_replaced {item : Except Fault.Cause α} {x : Option α} (h : Suits item x) :
    S.Edits xs i (0 ≤ i.toInt ∧ i.toInt < xs.length) (x.map (xs.set i.toInt.toNat))
      ((S.value xs).orUnchanged ((Value.replaced xs i item).map S.value)) := by
  refine edits_of_suits (fun hi => ?_) fun hi => ?_
  · rw [Value.replaced, elementPosition, if_pos hi]
    exact h.map (xs.set i.toInt.toNat)
  · rw [Value.replaced, elementPosition, if_neg hi]
    rfl

theorem edits_erased :
    S.Edits xs i (0 ≤ i.toInt ∧ i.toInt < xs.length) (some (xs.eraseIdx i.toInt.toNat))
      ((S.value xs).orUnchanged ((Value.erased xs i).map S.value)) := by
  refine edits_of_suits (fun hi => ?_) fun hi => ?_
  · rw [Value.erased, elementPosition, if_pos hi]
    exact suits_ok _
  · rw [Value.erased, elementPosition, if_neg hi]
    rfl

end

/-! ## Arguments -/

theorem suits_narrowCharacter (n : Int64) : Suits (narrowCharacter n) (narrow? n) := by
  unfold narrowCharacter narrow?
  by_cases h : 0 < n.toInt ∧ n.toInt < 256
  · rw [if_pos h, if_pos (by omega)]
    exact suits_ok _
  · rw [if_neg h, if_neg (by omega)]
    exact suits_error nofun

theorem suits_byte (n : Int64) : Suits (byte n) (octet? n) := by
  unfold byte octet?
  by_cases h : 0 ≤ n.toInt ∧ n.toInt < 256
  · rw [if_pos h, if_pos (by omega)]
    exact suits_ok _
  · rw [if_neg h, if_neg (by omega)]
    exact suits_error nofun

theorem suits_mismatch {β : Type} (v : Value) (what : String) :
    Suits (.error (v.mismatch what) : Except Fault.Cause β) none := by
  refine suits_error fun j n => ?_
  unfold Value.mismatch
  split <;> exact nofun

theorem suits_character (v : Value) : Suits (v.integer?.bind narrowCharacter) (literal.item? v) := by
  cases v with
  | integer n => exact suits_narrowCharacter n
  | _ => exact suits_mismatch _ _

theorem suits_literalItem (v : Value) : Suits (Value.literalItem v) (literal.items? v) := by
  cases v with
  | integer n => exact (suits_narrowCharacter n).map ([·])
  | literal s => exact suits_ok s.toList
  | _ => exact suits_error nofun

theorem suits_octet (v : Value) : Suits (v.integer?.bind byte) (tabchar.item? v) := by
  cases v with
  | integer n => exact suits_byte n
  | _ => exact suits_mismatch _ _

theorem suits_bytesItem (v : Value) : Suits (Value.bytesItem v) (tabchar.items? v) := by
  cases v with
  | integer n => exact (suits_byte n).map ([·])
  | literal s =>
    rw [Value.bytesItem, Utf8.encode_eq_spell]
    exact suits_ok (Utf8.spell s.toList)
  | tabchar bytes => exact suits_ok bytes
  | _ => exact suits_error nofun

theorem suits_coerce (v : Value) (t : Ty) : Suits (v.coerce t) (v.coerce t).toOption :=
  ⟨rfl, fun _ h => (Value.coerce_error v h).ne_indexRange⟩

theorem toOption_coerceAll (vs : List Value) (t : Ty) :
    (Value.coerceAll vs t).toOption = vs.mapM fun v => (v.coerce t).toOption := by
  induction vs with
  | nil => rfl
  | cons v vs ih =>
    rw [List.mapM_cons, ← ih, Value.coerceAll]
    cases v.coerce t with
    | error c => rfl
    | ok w => cases Value.coerceAll vs t <;> rfl

theorem suits_coerceAll (vs : List Value) (t : Ty) :
    Suits (Value.coerceAll vs t) (vs.mapM fun v => (v.coerce t).toOption) :=
  ⟨toOption_coerceAll vs t, fun _ h => (Value.coerceAll_error vs h).ne_indexRange⟩

/-! ## Literals -/

theorem map_literal (r : Except Fault.Cause (List Char)) :
    (r.map String.ofList).map Value.literal = r.map literal.value := by
  cases r <;> rfl

theorem literal_lawful : literal.Lawful where
  count cs := by
    show Except.ok (Value.integer (lengthOf (String.ofList cs).length)) = _
    rw [String.length_ofList]
  at_inside cs i c h0 hc := by
    obtain ⟨hlt, -⟩ := List.getElem?_eq_some_iff.mp hc
    have hi : 0 ≤ i.toInt ∧ i.toInt < cs.length := by omega
    have hlow : c.toNat < 2 ^ 32 := c.val.toNat_lt
    show (elementPosition i (String.ofList cs).length).map _ = _
    rw [String.length_ofList, elementPosition, if_pos hi, Except.map, Text.charAt?_offset, String.toList_ofList, hc,
      Option.getD_some, lengthOf_of_lt hlow]
    rfl
  at_outside cs i h := by
    show (elementPosition i (String.ofList cs).length).map _ = _
    rw [String.length_ofList, elementPosition, if_neg h]
    rfl
  insert cs i v := by
    show Edits _ _ _ _ _
      ((literal.value cs).orUnchanged ((Value.insertedText _ i (Value.literalItem v)).map .literal))
    rw [Value.insertedText_eq, String.toList_ofList, map_literal]
    exact edits_inserted (suits_literalItem v)
  append cs v := by
    rw [← String.length_ofList]
    rfl
  put cs i v := by
    show Edits _ _ _ _ _
      ((literal.value cs).orUnchanged ((Value.replacedText _ i (v.integer?.bind narrowCharacter)).map .literal))
    rw [Value.replacedText_eq, String.toList_ofList, map_literal]
    exact edits_replaced (suits_character v)
  delete cs i := by
    show Edits _ _ _ _ _ ((literal.value cs).orUnchanged ((Value.erasedText _ i).map .literal))
    rw [Value.erasedText_eq, String.toList_ofList, map_literal]
    exact edits_erased

/-! ## Byte arrays -/

theorem tabchar_lawful : tabchar.Lawful where
  count bytes := rfl
  at_inside bytes i b h0 hb := by
    obtain ⟨hlt, -⟩ := List.getElem?_eq_some_iff.mp hb
    have hi : 0 ≤ i.toInt ∧ i.toInt < bytes.length := by omega
    show (elementPosition i bytes.length).map _ = _
    have hlow : b.toNat < 2 ^ 32 := Nat.lt_trans b.toNat_lt (by decide)
    rw [elementPosition, if_pos hi, Except.map, List.getD_eq_getElem?_getD, hb, Option.getD_some,
      lengthOf_of_lt hlow]
    rfl
  at_outside bytes i h := by
    show (elementPosition i bytes.length).map _ = _
    rw [elementPosition, if_neg h]
    rfl
  insert bytes i v := edits_inserted (suits_bytesItem v)
  append bytes v := rfl
  put bytes i v := edits_replaced (suits_octet v)
  delete bytes i := edits_erased

/-! ## Collections -/

section
variable {e : Ty} {items : List Value} {i : Int64}

theorem ofOperation_insertAll (he : e.kind ≠ .noType) (vs : List Value) :
    Value.ofOperation (Collection.insertAll ⟨e, items⟩ i vs) =
      (Value.collection e items).orUnchanged
        ((Value.inserted items i (Value.coerceAll vs e)).map (.collection e)) := by
  simp only [Collection.insertAll, Collection.fitAll_of_kind he, Value.inserted, Collection.size]
  cases gapPosition i items.length with
  | error c => rfl
  | ok p => cases Value.coerceAll vs e <;> rfl

theorem ofOperation_put (he : e.kind ≠ .noType) (v : Value) :
    Value.ofOperation (Collection.put ⟨e, items⟩ i v) =
      (Value.collection e items).orUnchanged ((Value.replaced items i (v.coerce e)).map (.collection e)) := by
  simp only [Collection.put, Collection.fit_of_kind he, Value.replaced, Collection.size]
  cases elementPosition i items.length with
  | error c => rfl
  | ok p => cases v.coerce e <;> rfl

theorem ofOperation_remove :
    Value.ofOperation (Collection.remove ⟨e, items⟩ i) =
      (Value.collection e items).orUnchanged ((Value.erased items i).map (.collection e)) := by
  simp only [Collection.remove, Value.erased, Collection.size]
  cases elementPosition i items.length <;> rfl

/-- The values that go into a collection: one, or all those of a collection of the same type. -/
def more (e : Ty) : Value → List Value
  | .collection e' vs => if Collection.isSpliceable ⟨e, []⟩ e'.arrayOf then vs else [.collection e' vs]
  | v => [v]

theorem suits_single (v : Value) : Suits (Value.coerceAll [v] e) ((v.coerce e).toOption.map ([·])) := by
  have h : Value.coerceAll [v] e = (v.coerce e).map ([·]) := by
    rw [Value.coerceAll]
    cases v.coerce e <;> rfl
  rw [h]
  exact (suits_coerce v e).map ([·])

/-- A collection is no element of one that has elements at its own level. -/
theorem coerce_of_level {e' : Ty} {vs : List Value} (he : e.kind ≠ .noType) (hl : e'.level = e.level) :
    ((Value.collection e' vs).coerce e).toOption = none := by
  have hu : e.isUntyped = false := by simp [Ty.isUntyped, he]
  have ha : e.accepts e'.arrayOf = false := by
    cases ha : e.accepts e'.arrayOf with
    | false => rfl
    | true =>
      have := Ty.accepts_level ha hu (Ty.isUntyped_arrayOf e')
      rw [Ty.level_arrayOf] at this
      omega
  rw [Value.coerce, if_neg (by simp [hu]), if_pos (by simp [ha])]
  rfl

theorem suits_more (he : e.kind ≠ .noType) (v : Value) :
    Suits (Value.coerceAll (more e v) e) ((collection e).items? v) := by
  cases v with
  | collection e' vs =>
    have hs : Collection.isSpliceable ⟨e, []⟩ e'.arrayOf = true ↔
        e'.level = e.level ∧ e.arrayOf.accepts e'.arrayOf = true := by
      simp [Collection.isSpliceable, Collection.type]
    simp only [more, collection, hs]
    by_cases hl : e'.level = e.level
    · by_cases ha : e.arrayOf.accepts e'.arrayOf = true
      · rw [if_pos ⟨hl, ha⟩, if_pos hl, if_pos ha]
        exact suits_coerceAll vs e
      · rw [if_neg (fun h => ha h.2), if_pos hl, if_neg ha]
        have := suits_single (e := e) (.collection e' vs)
        rwa [coerce_of_level he hl] at this
    · rw [if_neg (fun h => hl h.1), if_neg hl]
      exact suits_single _
  | _ => exact suits_single _

theorem insert_collection (v : Value) (m : Member) :
    (Value.collection e items).insert i v m =
      Value.ofOperation (Collection.insertAll ⟨e, items⟩ i (more e v)) := by
  cases v with
  | collection e' vs =>
    simp only [Value.insert, more]
    split <;> rename_i hs <;> split <;> rename_i hs'
    · rfl
    · exact absurd hs hs'
    · exact absurd hs' hs
    · rfl
  | _ => rfl

end

theorem collection_lawful {e : Ty} (he : e.kind ≠ .noType) : (collection e).Lawful where
  count items := rfl
  at_inside items i v h0 hv := by
    obtain ⟨hlt, -⟩ := List.getElem?_eq_some_iff.mp hv
    have hp : elementPosition i items.length = .ok i.toInt.toNat := if_pos (by omega)
    show Collection.get ⟨e, items⟩ i = _
    simp only [Collection.get, Collection.size, hp, hv]
    rfl
  at_outside items i h := by
    have hp : elementPosition i items.length = .error (.indexRange i items.length) := if_neg h
    show Collection.get ⟨e, items⟩ i = _
    simp only [Collection.get, Collection.size, hp]
  insert items i v := by
    show Edits _ _ _ _ _ ((Value.collection e items).insert i v (.named "insert"))
    rw [insert_collection, ofOperation_insertAll he]
    exact edits_inserted (S := collection e) (suits_more he v)
  append items v := by
    show (Value.collection e items).insert _ v (.named "append") =
      (Value.collection e items).insert _ v (.named "insert")
    rw [insert_collection, insert_collection]
  put items i v := by
    show Edits _ _ _ _ _ (Value.ofOperation (Collection.put ⟨e, items⟩ i v))
    rw [ofOperation_put he]
    exact edits_replaced (S := collection e) (suits_coerce v e)
  delete items i := by
    show Edits _ _ _ _ _ (Value.ofOperation (Collection.remove ⟨e, items⟩ i))
    rw [ofOperation_remove]
    exact edits_erased (S := collection e)

/-! ## All of them -/

/-- The places where the methods of a literal cut its bytes are between characters. -/
structure CutsBetween (s : String) (i : Int64) : Prop where
  gap (p : Nat) (more : List Char) : gapPosition i s.length = .ok p →
    let start := Text.offset s.toList p
    (Text.splice? s start start (String.ofList more)).isSome = true
  element (p : Nat) (more : List Char) : elementPosition i s.length = .ok p →
    let start := Text.offset s.toList p
    (Text.charAt? s start).isSome = true ∧
      (Text.splice? s start (Value.pastChar s start) (String.ofList more)).isSome = true

theorem cutsBetween (s : String) (i : Int64) : CutsBetween s i where
  gap p more _ := by simp only [Text.splice?_offset, Option.isSome_some]
  element p more h := by
    have hp : p < s.length := by
      unfold elementPosition at h
      split at h
      · cases h
        omega
      · cases h
    refine ⟨?_, ?_⟩
    · rw [Text.charAt?_offset, List.getElem?_eq_getElem (by rwa [String.length_toList]), Option.isSome_some]
    · simp only [Value.pastChar_offset s hp, Text.splice?_offset, Option.isSome_some]

/-- Methods are operations on lists: of the characters of a literal, of the bytes of a byte array and of the
elements of a collection whose element type has a kind. No literal is cut inside a character. -/
theorem methods_edit_lists :
    literal.Lawful ∧ (∀ s : String, literal.value s.toList = .literal s ∧ ∀ i, CutsBetween s i) ∧
      tabchar.Lawful ∧ ∀ e : Ty, e.kind ≠ .noType → (collection e).Lawful :=
  ⟨literal_lawful, fun s => ⟨congrArg Value.literal String.ofList_toList, cutsBetween s⟩, tabchar_lawful,
    fun _ => collection_lawful⟩

/-- A text goes into a literal in front of a character of three bytes, and a null into a collection of
integers. -/
theorem methods_edit_lists_wide :
    (Value.literal "aé€😀").mutate (.named "insert") [.integer 2, .literal "ß"] = (.literal "aéß€😀", .ok ()) ∧
      (Value.literal "aé€😀").mutate (.named "delete") [.integer (-1)] =
        (.literal "aé€😀", .error (.indexRange (-1) 4)) ∧
      (Value.collection Ty.integer [.integer 1, .integer 2]).mutate (.named "put") [.integer 1, .null Ty.untyped] =
        (.collection Ty.integer [.integer 1, .null Ty.integer], .ok ()) :=
  ⟨(methods_edit_lists.1.insert ['a', 'é', '€', '😀'] 2 (.literal "ß")).done _ (by decide) rfl,
    (methods_edit_lists.1.delete ['a', 'é', '€', '😀'] (-1)).outside (by decide),
    (((methods_edit_lists.2.2.2 Ty.integer (by decide)).put [.integer 1, .integer 2] 1 (.null Ty.untyped)).done _
      (by decide) rfl)⟩

end Sequence
end Crunch
