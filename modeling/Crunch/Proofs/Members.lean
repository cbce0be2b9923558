import Crunch.Check
import Crunch.Proofs.Functions
import Crunch.Value.Method
import Mathlib.Data.List.Forall2

/-!
# Crunch.Proofs.Members

Methods on solid values.

* `Value.Stays`: the outcome of a method that changes its receiver, which keeps its type.
* `Value.lands_access`, `Value.stays_mutate`: a method that the check lets through gives a value of
  the type that the check tells, or keeps the type of its receiver, and fails only for another reason
  than types.
-/

namespace Crunch

/-- A receiver that keeps its type, whether its method fails or not. -/
structure Value.Stays (t : Ty) (r : Value × Except Fault.Cause Unit) : Prop where
  type : r.1.HasType t
  outcome : Lands r.2 fun _ => True

/-! ## Collections -/

namespace Collection

variable {e : Ty} {items vs : List Value} {v : Value}

/-- A value that fits a collection with a kind is converted to the type of its elements. -/
theorem lands_fit (he : e.Solid) (hv : v.Solid) (ha : e.accepts v.type = true) :
    (fit e v).1 = e ∧ Lands (fit e v).2 (·.HasType e) := by
  have hadopted : adopted e v = e := by simp [adopted, he.kind_ne]
  simp only [fit, hadopted]
  exact ⟨trivial, hv.coerce he ha⟩

theorem lands_fitAll (he : e.Solid) (hvs : ∀ v ∈ vs, v.Solid ∧ e.accepts v.type = true) :
    (fitAll e vs).1 = e ∧ Lands (fitAll e vs).2 fun ws => ∀ w ∈ ws, w.HasType e := by
  induction vs with
  | nil => exact ⟨rfl, by simp [fitAll]⟩
  | cons v vs ih =>
    obtain ⟨hv, ha⟩ := hvs v List.mem_cons_self
    obtain ⟨h₁, h₂⟩ := lands_fit he hv ha
    obtain ⟨h₃, h₄⟩ := ih fun w hw => hvs w (List.mem_cons_of_mem _ hw)
    simp only [fitAll]
    rcases hf : fit e v with ⟨e', r⟩
    rw [hf] at h₁ h₂
    cases h₁
    cases r with
    | error c => exact ⟨rfl, h₂⟩
    | ok w =>
      rcases hfs : fitAll e' vs with ⟨e'', r⟩
      rw [hfs] at h₃ h₄
      cases h₃
      cases r with
      | error c => simpa [hfs] using h₄
      | ok ws =>
        simp only [hfs]
        refine ⟨trivial, fun x hx => ?_⟩
        rcases List.mem_cons.mp hx with rfl | hx
        · exact h₂
        · exact h₄ x hx

theorem lands_get {i : Int64} (hitems : ∀ w ∈ items, w.HasType e) :
    Lands (get ⟨e, items⟩ i) (·.HasType e) := by
  simp only [get]
  have hg : Lands (elementPosition i (size ⟨e, items⟩)) (· < size ⟨e, items⟩) := lands_elementPosition
  cases hp : elementPosition i (size ⟨e, items⟩) with
  | error c =>
    rw [hp] at hg
    exact hg
  | ok p =>
    simp only
    split
    · rename_i w hw
      exact hitems w (List.mem_of_getElem? hw)
    · rfl

variable {i : Int64} (he : e.Solid) (hitems : ∀ w ∈ items, w.HasType e)

include he hitems

theorem stays_insertAll (hvs : ∀ v ∈ vs, v.Solid ∧ e.accepts v.type = true) :
    Value.Stays e.arrayOf (Value.ofOperation (insertAll ⟨e, items⟩ i vs)) := by
  have hc := Value.hasType_collection he hitems
  simp only [insertAll]
  have hg : Lands (gapPosition i (size ⟨e, items⟩)) fun _ => True := lands_gapPosition
  cases hp : gapPosition i (size ⟨e, items⟩) with
  | error c =>
    rw [hp] at hg
    exact ⟨hc, hg⟩
  | ok p =>
    obtain ⟨h₁, h₂⟩ := lands_fitAll he hvs
    rcases hf : fitAll e vs with ⟨e', r⟩
    rw [hf] at h₁ h₂
    cases h₁
    cases r with
    | error c => exact ⟨hc, h₂⟩
    | ok ws =>
      refine ⟨Value.hasType_collection he fun w hw => ?_, trivial⟩
      rcases List.mem_append.mp hw with hw | hw
      · rcases List.mem_append.mp hw with hw | hw
        · exact hitems w (List.mem_of_mem_take hw)
        · exact h₂ w hw
      · exact hitems w (List.mem_of_mem_drop hw)

theorem stays_put (hv : v.Solid) (ha : e.accepts v.type = true) :
    Value.Stays e.arrayOf (Value.ofOperation (put ⟨e, items⟩ i v)) := by
  have hc := Value.hasType_collection he hitems
  simp only [put]
  have hg : Lands (elementPosition i (size ⟨e, items⟩)) (· < size ⟨e, items⟩) := lands_elementPosition
  cases hp : elementPosition i (size ⟨e, items⟩) with
  | error c =>
    rw [hp] at hg
    exact ⟨hc, hg⟩
  | ok p =>
    obtain ⟨h₁, h₂⟩ := lands_fit he hv ha
    rcases hf : fit e v with ⟨e', r⟩
    rw [hf] at h₁ h₂
    cases h₁
    cases r with
    | error c => exact ⟨hc, h₂⟩
    | ok w =>
      refine ⟨Value.hasType_collection he fun x hx => ?_, trivial⟩
      rcases List.mem_or_eq_of_mem_set hx with hx | rfl
      · exact hitems x hx
      · exact h₂

theorem stays_remove : Value.Stays e.arrayOf (Value.ofOperation (remove ⟨e, items⟩ i)) := by
  have hc := Value.hasType_collection he hitems
  simp only [remove]
  have hg : Lands (elementPosition i (size ⟨e, items⟩)) (· < size ⟨e, items⟩) := lands_elementPosition
  cases hp : elementPosition i (size ⟨e, items⟩) with
  | error c =>
    rw [hp] at hg
    exact ⟨hc, hg⟩
  | ok p => exact ⟨Value.hasType_collection he fun w hw => hitems w (List.mem_of_mem_eraseIdx hw), trivial⟩

end Collection

/-! ## Texts, byte arrays and tuples -/

namespace Value

variable {v item : Value} {t u : Ty} {m : Member} {i : Int64}

theorem stays_orUnchanged {r : Except Fault.Cause Value} (hv : v.HasType t) (h : Lands r (·.HasType t)) :
    Stays t (v.orUnchanged r) := by
  cases r with
  | ok w => exact ⟨h, trivial⟩
  | error c => exact ⟨hv, h⟩

theorem lands_narrowCharacter {n : Int64} : Lands (narrowCharacter n) fun _ => True :=
  lands_ite (fun _ => trivial) fun _ => rfl

theorem lands_byte {n : Int64} : Lands (byte n) fun _ => True :=
  lands_ite (fun _ => trivial) fun _ => rfl

theorem lands_literalItem (h : Domain.literalOrInteger.Holds item) : Lands (literalItem item) fun _ => True := by
  rcases h with ⟨s, rfl⟩ | ⟨n, rfl⟩
  · trivial
  · exact lands_narrowCharacter.map fun _ _ => trivial

theorem lands_bytesItem (h : Domain.literalOrBytes.Holds item ∨ Domain.integer.Holds item) :
    Lands (bytesItem item) fun _ => True := by
  rcases h with (⟨s, rfl⟩ | ⟨bytes, rfl⟩) | ⟨n, rfl⟩
  · trivial
  · trivial
  · exact lands_byte.map fun _ _ => trivial

theorem lands_inserted {α : Type} {items : List α} {more : Except Fault.Cause (List α)}
    (h : Lands more fun _ => True) : Lands (inserted items i more) fun _ => True :=
  lands_gapPosition.bind fun _ _ => h.bind fun _ _ => trivial

theorem lands_replaced {α : Type} {items : List α} {x : Except Fault.Cause α} (h : Lands x fun _ => True) :
    Lands (replaced items i x) fun _ => True :=
  lands_elementPosition.bind fun _ _ => h.bind fun _ _ => trivial

theorem lands_erased {α : Type} {items : List α} : Lands (erased items i) fun _ => True :=
  lands_elementPosition.map fun _ _ => trivial

theorem lands_insertedText {s : String} {more : Except Fault.Cause (List Char)} (h : Lands more fun _ => True) :
    Lands (insertedText s i more) fun _ => True :=
  lands_gapPosition.bind fun _ _ => h.bind fun _ _ => trivial

theorem lands_replacedText {s : String} {c : Except Fault.Cause Char} (h : Lands c fun _ => True) :
    Lands (replacedText s i c) fun _ => True :=
  lands_elementPosition.bind fun _ _ => h.bind fun _ _ => trivial

theorem lands_erasedText {s : String} : Lands (erasedText s i) fun _ => True :=
  lands_elementPosition.map fun _ _ => trivial

/-- A receiver with the methods of sequences. -/
inductive IsSequenceOf : Value → Ty → Prop where
  | literal (s : String) : IsSequenceOf (.literal s) Ty.literal
  | tabchar (bytes : List UInt8) : IsSequenceOf (.tabchar bytes) Ty.tabchar
  | collection {e : Ty} {items : List Value} :
      e.Solid → (∀ w ∈ items, w.HasType e) → IsSequenceOf (.collection e items) e.arrayOf

theorem isSequenceOf (hv : v.HasType t) (h : Check.isSequence t = true) : IsSequenceOf v t := by
  have ht := hv.tySolid
  simp only [Check.isSequence, Bool.or_eq_true] at h
  rcases h with (h | h) | h
  · obtain ⟨e, he⟩ := Ty.element?_of_level_pos (by simpa [Ty.isCollection] using h)
    obtain ⟨items, rfl, hitems⟩ := hv.elements he
    rw [Ty.eq_arrayOf_of_element? he]
    exact .collection (ht.element he) hitems
  · obtain ⟨s, rfl⟩ := hv.form h
    cases hv.type
    exact .literal s
  · obtain ⟨bytes, rfl⟩ := hv.form h
    cases hv.type
    exact .tabchar bytes

/-- Items that the check lets through can be put in front of a position. -/
theorem IsSequenceOf.insert (h : IsSequenceOf v t) (hitem : item.HasType u)
    (ha : Check.admitsItem t u false = true) : Stays t (v.insert i item m) := by
  cases h with
  | literal s =>
    have hi : Domain.literalOrInteger.Holds item := Domain.holds hitem ha
    exact stays_orUnchanged ⟨.literal s, rfl⟩ ((lands_insertedText (lands_literalItem hi)).map fun _ _ => ⟨.literal _, rfl⟩)
  | tabchar bytes =>
    have ha' : (Domain.literalOrBytes.admits u || Domain.integer.admits u) = true := ha
    rw [Bool.or_eq_true] at ha'
    have hi := ha'.imp (Domain.holds hitem) (Domain.holds hitem)
    exact stays_orUnchanged ⟨.tabchar bytes, rfl⟩ ((lands_inserted (lands_bytesItem hi)).map fun _ _ => ⟨.tabchar _, rfl⟩)
  | @collection e items he hitems =>
    simp only [Check.admitsItem, Ty.arrayOf_element?, Bool.not_false, Bool.true_and, Bool.or_eq_true] at ha
    have hu := hitem.tySolid
    have hwhole : e.arrayOf.accepts u = true → e.level + 1 = u.level := fun h => by
      have := Ty.accepts_level h he.arrayOf.isUntyped hu.isUntyped
      rwa [Ty.level_arrayOf] at this
    -- An item that goes in as one element.
    have hsingle : e.accepts u = true → Stays e.arrayOf (ofOperation (Collection.insert ⟨e, items⟩ i item)) := by
      intro h
      refine Collection.stays_insertAll he hitems fun w hw => ?_
      rw [List.mem_singleton.mp hw, hitem.type]
      exact ⟨hitem.solid, h⟩
    obtain ⟨hs, rfl⟩ := hitem
    cases hs with
    | @collection e' items' he' ht' hs' =>
      simp only [Value.insert]
      split
      · rename_i hsplice
        simp only [Collection.isSpliceable, Bool.and_eq_true] at hsplice
        refine Collection.stays_insertAll he hitems fun w hw => ⟨hs' w hw, ?_⟩
        rw [ht' w hw, ← he.accepts_arrayOf he']
        exact hsplice.2
      · rename_i hsplice
        refine hsingle (ha.resolve_right fun h => hsplice ?_)
        simp only [Collection.isSpliceable, Bool.and_eq_true, beq_iff_eq]
        exact ⟨(hwhole h).symm, h⟩
    | _ => exact hsingle (ha.resolve_right fun h => absurd (hwhole h) (Nat.succ_ne_zero _))

theorem IsSequenceOf.put (h : IsSequenceOf v t) (hitem : item.HasType u)
    (ha : Check.admitsItem t u true = true) : Stays t (v.put i item m) := by
  cases h with
  | literal s =>
    obtain ⟨n, rfl⟩ : Domain.integer.Holds item := Domain.holds hitem ha
    exact stays_orUnchanged ⟨.literal s, rfl⟩ ((lands_replacedText lands_narrowCharacter).map fun _ _ => ⟨.literal _, rfl⟩)
  | tabchar bytes =>
    obtain ⟨n, rfl⟩ : Domain.integer.Holds item := Domain.holds hitem ha
    exact stays_orUnchanged ⟨.tabchar bytes, rfl⟩ ((lands_replaced lands_byte).map fun _ _ => ⟨.tabchar _, rfl⟩)
  | collection he hitems =>
    simp only [Check.admitsItem, Ty.arrayOf_element?, Bool.not_true, Bool.false_and, Bool.or_false] at ha
    exact Collection.stays_put he hitems hitem.solid (hitem.type ▸ ha)

theorem IsSequenceOf.delete (h : IsSequenceOf v t) : Stays t (v.delete i m) := by
  cases h with
  | literal s => exact stays_orUnchanged ⟨.literal s, rfl⟩ (lands_erasedText.map fun _ _ => ⟨.literal _, rfl⟩)
  | tabchar bytes => exact stays_orUnchanged ⟨.tabchar bytes, rfl⟩ (lands_erased.map fun _ _ => ⟨.tabchar _, rfl⟩)
  | collection he hitems => exact Collection.stays_remove he hitems

theorem IsSequenceOf.append (h : IsSequenceOf v t) (hitem : item.HasType u)
    (ha : Check.admitsItem t u false = true) : Stays t (v.append item m) := by
  have hcount : ∃ n, v.countOf m = .ok n := by
    cases h <;> exact ⟨_, rfl⟩
  obtain ⟨n, hn⟩ := hcount
  simp only [Value.append, hn]
  exact h.insert hitem ha

theorem IsSequenceOf.atPosition (h : IsSequenceOf v t) :
    Lands (v.atPosition i m) (·.HasType (t.element?.getD Ty.integer)) := by
  cases h with
  | literal s => exact lands_elementPosition.map fun _ _ => ⟨.integer _, rfl⟩
  | tabchar bytes => exact lands_elementPosition.map fun _ _ => ⟨.integer _, rfl⟩
  | collection he hitems =>
    rw [Ty.arrayOf_element?]
    exact Collection.lands_get hitems

theorem stays_setField {fields : List Ty} {p : Nat} {field : Ty} (hv : v.HasType t) (hf : t.fields? = some fields)
    (hp : Ty.field? fields p = some field) (hitem : item.Solid) (ha : field.accepts item.type = true) :
    Stays t (v.mutate (.setField p) [item]) := by
  obtain ⟨vs, rfl, hvs, hsolid⟩ := hv.row hf
  obtain ⟨rfl, hfields⟩ := hv.tySolid.fields? hf
  refine stays_orUnchanged hv ?_
  have hget : p ≠ 0 ∧ fields[p - 1]? = some field := by
    simp only [Ty.field?] at hp
    split at hp
    · cases hp
    · exact ⟨‹_›, hp⟩
  have hfield : fields.getD (p - 1) Ty.untyped = field := by rw [List.getD_eq_getElem?_getD, hget.2, Option.getD_some]
  have hcoerce : Lands (item.coerce (fields.getD (p - 1) Ty.untyped)) (·.HasType field) := by
    rw [hfield]
    exact hitem.coerce (hfields field (List.mem_of_getElem? hget.2)) ha
  refine Lands.bind (P := fun r : Row => r = ⟨vs, fields⟩) rfl fun r hr => ?_
  subst hr
  refine Lands.bind (P := fun r : Row => r.value.HasType (Ty.tuple fields)) ?_ fun r hr => hr
  refine lands_ite (fun _ => rfl) fun _ => hcoerce.map fun w hw => ?_
  -- The field keeps its type, so the types of all fields are as they were.
  have htypes : (vs.set (p - 1) w).map Value.type = fields := by
    rw [List.map_set, hvs, hw.type]
    refine List.ext_getElem? fun k => ?_
    rw [List.getElem?_set]
    split
    · rename_i hk
      subst hk
      have hlt := (List.getElem?_eq_some_iff.mp hget.2).1
      rw [if_pos hlt, hget.2]
    · rfl
  refine ⟨.tuple htypes fun x hx => ?_, rfl⟩
  rcases List.mem_or_eq_of_mem_set hx with hx | rfl
  · exact hsolid x hx
  · exact hw.solid

end Value
/-! ## Methods that the check lets through -/

namespace Check

/-- The methods of a receiver of a solid type that the check lets through: the types of their
arguments and of their result. -/
inductive Method (r : Ty) : Member → List Ty → Ty → Prop where
  | count : r.fields?.isSome = true ∨ isSequence r = true → Method r (.named "count") [] Ty.integer
  | atPosition {t : Ty} : isSequence r = true → Domain.integer.admits t = true →
      Method r (.named "at") [t] (r.element?.getD Ty.integer)
  | insert {t u : Ty} : isSequence r = true → Domain.integer.admits t = true → admitsItem r u false = true →
      Method r (.named "insert") [t, u] r
  | put {t u : Ty} : isSequence r = true → Domain.integer.admits t = true → admitsItem r u true = true →
      Method r (.named "put") [t, u] r
  | append {u : Ty} : isSequence r = true → admitsItem r u false = true → Method r (.named "append") [u] r
  | delete {t : Ty} : isSequence r = true → Domain.integer.admits t = true → Method r (.named "delete") [t] r
  | setField {p : Nat} {fields : List Ty} {field t : Ty} : r.fields? = some fields →
      Ty.field? fields p = some field → field.accepts t = true → Method r (.setField p) [t] r

variable {r τ : Ty} {line : Nat} {name : String} {types : List Ty}

theorem pair_of_length (h : types.length = 2) : ∃ t u, types = [t, u] := by
  match types, h with
  | [t, u], _ => exact ⟨t, u, rfl⟩

theorem length_of_expectCount {n : Nat} {u : Unit} (h : expectCount line name types n = .ok u) : types.length = n := by
  unfold expectCount at h
  split at h
  · assumption
  · cases h

theorem admits_of_expectIndex {position : Nat} {t : Ty} {u : Unit} (h : expectIndex line name position t = .ok u) :
    Domain.integer.admits t = true := by
  unfold expectIndex at h
  split at h
  · assumption
  · cases h

theorem admits_of_expectItem {position : Nat} {t : Ty} {single : Bool} {u : Unit}
    (h : expectItem line name r position t single = .ok u) : admitsItem r t single = true := by
  unfold expectItem at h
  split at h
  · assumption
  · cases h

theorem sequence_method (hr : isSequence r = true) (h : sequenceMethod line r name types = .ok τ) :
    Method r (.named name) types τ := by
  simp only [sequenceMethod] at h
  split at h
  · obtain ⟨_, hn, h⟩ := ok_of_bind h
    cases h
    rw [List.length_eq_zero_iff.mp (length_of_expectCount hn)]
    exact .count (.inr hr)
  · obtain ⟨_, hn, h⟩ := ok_of_bind h
    obtain ⟨_, hi, h⟩ := ok_of_bind h
    cases h
    obtain ⟨t, rfl⟩ := List.length_eq_one_iff.mp (length_of_expectCount hn)
    exact .atPosition hr (admits_of_expectIndex hi)
  · obtain ⟨_, hn, h⟩ := ok_of_bind h
    obtain ⟨_, hi, h⟩ := ok_of_bind h
    obtain ⟨_, hit, h⟩ := ok_of_bind h
    cases h
    obtain ⟨t, u, rfl⟩ := pair_of_length (length_of_expectCount hn)
    exact .insert hr (admits_of_expectIndex hi) (admits_of_expectItem hit)
  · obtain ⟨_, hn, h⟩ := ok_of_bind h
    obtain ⟨_, hi, h⟩ := ok_of_bind h
    obtain ⟨_, hit, h⟩ := ok_of_bind h
    cases h
    obtain ⟨t, u, rfl⟩ := pair_of_length (length_of_expectCount hn)
    exact .put hr (admits_of_expectIndex hi) (admits_of_expectItem hit)
  · obtain ⟨_, hn, h⟩ := ok_of_bind h
    obtain ⟨_, hit, h⟩ := ok_of_bind h
    cases h
    obtain ⟨u, rfl⟩ := List.length_eq_one_iff.mp (length_of_expectCount hn)
    exact .append hr (admits_of_expectItem hit)
  · obtain ⟨_, hn, h⟩ := ok_of_bind h
    obtain ⟨_, hi, h⟩ := ok_of_bind h
    cases h
    obtain ⟨t, rfl⟩ := List.length_eq_one_iff.mp (length_of_expectCount hn)
    exact .delete hr (admits_of_expectIndex hi)
  · cases h

/-- The method calls on a solid type that the check lets through. -/
theorem member_method {env : Env} {m : Member} {assignable : List Bool} (hr : r.Solid)
    (h : member env line r m types assignable = .ok τ) : Method r m types τ := by
  simp only [member, hr.isUntyped, hr.objectName?, Bool.false_eq_true, if_false] at h
  cases m with
  | setField p =>
    simp only [setField] at h
    split at h
    · cases h
    · rename_i fields hf
      split at h
      · cases h
      · rename_i field hp
        obtain ⟨_, hn, h⟩ := ok_of_bind h
        obtain ⟨t, rfl⟩ := List.length_eq_one_iff.mp (length_of_expectCount hn)
        split at h
        · rename_i ha
          cases h
          exact .setField hf hp ha
        · cases h
  | named name =>
    simp only at h
    split at h
    · rename_i hf
      split at h
      · rename_i hc
        obtain ⟨_, hn, h⟩ := ok_of_map h
        have hname : name = "count" := hc
        rw [List.length_eq_zero_iff.mp (length_of_expectCount hn), ← h, hname]
        exact .count (.inl hf)
      · cases h
    · split at h
      · rename_i hs
        exact sequence_method hs h
      · cases h

end Check

namespace Value

variable {v : Value} {r τ : Ty} {m : Member} {args : List Value} {types : List Ty}

/-- A method that only reads. -/
theorem lands_access (hv : v.HasType r) (h : Check.Method r m types τ) (hm : m.isMutator = false)
    (hargs : List.Forall₂ HasType args types) : Lands (v.access m args) (·.HasType τ) := by
  cases h with
  | count hr =>
    cases hargs
    have hcount : ∃ n, v.countOf (.named "count") = .ok n := by
      rcases hr with hr | hr
      · obtain ⟨fields, hf⟩ := Option.isSome_iff_exists.mp hr
        obtain ⟨vs, rfl, -⟩ := hv.row hf
        exact ⟨_, rfl⟩
      · cases isSequenceOf hv hr <;> exact ⟨_, rfl⟩
    obtain ⟨n, hn⟩ := hcount
    have haccess : v.access (.named "count") [] = .ok (.integer (lengthOf n)) := by
      simp only [access, if_true, expectArguments, List.length_nil, hn]
      rfl
    rw [haccess]
    exact ⟨.integer _, rfl⟩
  | atPosition hr ht =>
    obtain _ | ⟨hi, hnil⟩ := hargs
    cases hnil
    obtain ⟨i, rfl⟩ : Domain.integer.Holds _ := Domain.holds hi ht
    have hseq := isSequenceOf hv hr
    have haccess : v.access (.named "at") [.integer i] = v.atPosition i (.named "at") := by
      cases hseq <;> rfl
    rw [haccess]
    exact hseq.atPosition
  | insert | put | append | delete | setField => cases hm

/-- An index that the check lets through is one. -/
theorem stays_withIndex {index : Value} {t : Ty} {step : Int64 → Value × Except Fault.Cause Unit}
    (hi : index.HasType t) (ht : Domain.integer.admits t = true) (h : ∀ i, Stays r (step i)) :
    Stays r (v.withIndex index step) := by
  obtain ⟨i, rfl⟩ : Domain.integer.Holds index := Domain.holds hi ht
  exact h i

/-- A method that changes its receiver. -/
theorem stays_mutate (hv : v.HasType r) (h : Check.Method r m types τ) (hm : m.isMutator = true)
    (hargs : List.Forall₂ HasType args types) : Stays r (v.mutate m args) ∧ τ = r := by
  cases h with
  | count | atPosition => cases hm
  | setField hf hp ha =>
    obtain _ | ⟨hitem, hnil⟩ := hargs
    cases hnil
    exact ⟨stays_setField hv hf hp hitem.solid (hitem.type ▸ ha), rfl⟩
  | insert hr hi ha =>
    obtain _ | ⟨hindex, _ | ⟨hitem, hnil⟩⟩ := hargs
    cases hnil
    exact ⟨stays_withIndex hindex hi fun i => (isSequenceOf hv hr).insert hitem ha, rfl⟩
  | put hr hi ha =>
    obtain _ | ⟨hindex, _ | ⟨hitem, hnil⟩⟩ := hargs
    cases hnil
    exact ⟨stays_withIndex hindex hi fun i => (isSequenceOf hv hr).put hitem ha, rfl⟩
  | append hr ha =>
    obtain _ | ⟨hitem, hnil⟩ := hargs
    cases hnil
    exact ⟨(isSequenceOf hv hr).append hitem ha, rfl⟩
  | delete hr hi =>
    obtain _ | ⟨hindex, hnil⟩ := hargs
    cases hnil
    exact ⟨stays_withIndex hindex hi fun i => (isSequenceOf hv hr).delete, rfl⟩

end Value
end Crunch
