import Crunch.Call
import Crunch.Operation
import Crunch.Slot
import Crunch.Value.Method

/-!
# Crunch.Proofs.Aliases

No computation on values makes up a reference to an object.

* `Value.Within`: a value that refers to objects of a set only.
* `Gives`: what holds of the result of a computation, if it has one.
* `Value.gives_coerce`, `Value.gives_access`, `Value.within_mutate`, `BinaryOp.gives_apply`,
  `UnaryOp.gives_apply`, `Builtin.gives_compute`: what is computed from values that refer to objects of a
  set refers to objects of this set.
-/

namespace Crunch

variable {K : Nat → Prop}

/-- A value that refers to objects of a set only. -/
def Value.Within (K : Nat → Prop) (v : Value) : Prop := ∀ id ∈ v.references, K id

/-- What holds of the result of a computation. -/
def Gives {α : Type} (r : Except Fault.Cause α) (P : α → Prop) : Prop := ∀ a, r = .ok a → P a

/-! ## One rule for each construct -/

section Rules

variable {α β : Type} {r r' : Except Fault.Cause α} {P : α → Prop} {Q : β → Prop}

theorem gives_ok {a : α} (h : P a) : Gives (.ok a) P := fun _ hb => Except.ok.inj hb ▸ h

theorem gives_pure {a : α} (h : P a) : Gives (pure a) P := gives_ok h

theorem gives_error {c : Fault.Cause} : Gives (.error c) P := nofun

theorem gives_any : Gives r fun _ => True := fun _ _ => trivial

theorem Gives.map {f : α → β} (h : Gives r P) (hf : ∀ a, P a → Q (f a)) : Gives (r.map f) Q := by
  cases r with
  | ok a => exact gives_ok (hf a (h a rfl))
  | error c => exact gives_error

theorem Gives.bind {f : α → Except Fault.Cause β} (h : Gives r P) (hf : ∀ a, P a → Gives (f a) Q) :
    Gives (r >>= f) Q := by
  cases r with
  | ok a => exact hf a (h a rfl)
  | error c => exact gives_error

theorem Gives.ite {p : Prop} [Decidable p] (h : Gives r P) (h' : Gives r' P) : Gives (if p then r else r') P := by
  split
  · exact h
  · exact h'

theorem gives_map {f : α → β} (hf : ∀ a, Q (f a)) : Gives (r.map f) Q := gives_any.map fun a _ => hf a

theorem gives_bind {f : α → Except Fault.Cause β} (hf : ∀ a, Gives (f a) Q) : Gives (r >>= f) Q :=
  gives_any.bind fun a _ => hf a

end Rules

namespace Value

variable {v w : Value} {t : Ty}

theorem referencesAll_eq (vs : List Value) : referencesAll vs = vs.flatMap references := by
  induction vs with
  | nil => rfl
  | cons v vs ih => simp only [referencesAll, List.flatMap_cons, ih]

theorem mem_referencesAll {vs : List Value} {id : Nat} : id ∈ referencesAll vs ↔ ∃ v ∈ vs, id ∈ v.references := by
  rw [referencesAll_eq, List.mem_flatMap]

theorem within_bare (h : v.references = []) : v.Within K := by
  intro id hid
  rw [h] at hid
  cases hid

@[simp] theorem within_object {native : String} {id : Nat} : (object native id).Within K ↔ K id := by
  simp [Within, references]

@[simp] theorem within_tuple {fields : List Value} {declared : List Ty} :
    (tuple fields declared).Within K ↔ ∀ v ∈ fields, v.Within K := by
  simp only [Within, references, mem_referencesAll]
  exact ⟨fun h v hv id hid => h id ⟨v, hv, hid⟩, fun h id ⟨v, hv, hid⟩ => h v hv id hid⟩

@[simp] theorem within_collection {e : Ty} {items : List Value} :
    (collection e items).Within K ↔ ∀ v ∈ items, v.Within K := by
  simp only [Within, references, mem_referencesAll]
  exact ⟨fun h v hv id hid => h id ⟨v, hv, hid⟩, fun h id ⟨v, hv, hid⟩ => h v hv id hid⟩

theorem Within.mono {K' : Nat → Prop} (hK : ∀ id, K id → K' id) (h : v.Within K) : v.Within K' :=
  fun id hid => hK id (h id hid)

theorem within_ofConstant (c : Constant) : (ofConstant c).Within K := by
  cases c <;> exact within_bare rfl

/-- A result without references. -/
theorem gives_bare (h : v.references = []) : Gives (.ok v) (·.Within K) := gives_ok (within_bare h)

/-! ## Conversions -/

theorem gives_convert (h : v.Within K) : Gives (v.convert t) (·.Within K) := by
  unfold convert
  split
  · exact gives_bare rfl
  · exact .ite (gives_bare rfl) (.ite (gives_bare rfl) (gives_ok h))
  · exact .ite (gives_bare rfl) (.ite (gives_map fun _ => within_bare rfl) (gives_ok h))
  · exact gives_ok h

mutual

theorem gives_coerce {v : Value} {t : Ty} (h : v.Within K) : Gives (v.coerce t) (·.Within K) := by
  cases v with
  | collection e items =>
    rw [coerce]
    refine .ite (gives_ok h) (.ite gives_error (.ite (gives_ok h) ?_))
    split
    · rename_i e' _
      have hs := gives_coerceAll (t := e') (within_collection.mp h)
      split
      · rename_i ws hws
        exact gives_ok (within_collection.mpr (hs ws hws))
      · exact gives_error
    · exact gives_ok h
  | _ =>
    rw [coerce]
    · exact .ite (gives_ok h) (.ite gives_error (gives_convert h))
    · nofun

theorem gives_coerceAll {vs : List Value} {t : Ty} (h : ∀ v ∈ vs, v.Within K) :
    Gives (coerceAll vs t) fun ws => ∀ w ∈ ws, w.Within K := by
  cases vs with
  | nil =>
    rw [coerceAll]
    exact gives_ok nofun
  | cons v vs =>
    rw [coerceAll]
    obtain ⟨hv, hvs⟩ := List.forall_mem_cons.mp h
    have hw := gives_coerce (t := t) hv
    have hws := gives_coerceAll (t := t) hvs
    split
    · exact gives_error
    · rename_i w hc
      split
      · exact gives_error
      · rename_i ws hcs
        exact gives_ok (List.forall_mem_cons.mpr ⟨hw w hc, hws ws hcs⟩)

end

end Value

theorem Slot.gives_store {slot : Slot} {v : Value} (h : v.Within K) : Gives (slot.store v) (·.value.Within K) :=
  (Value.gives_coerce h).map fun _ hw => hw

/-! ## Tuples and collections -/

namespace Row

variable {r : Row} {p : Nat} {v : Value}

theorem gives_ofValue? (h : v.Within K) : Gives (ofValue? v) fun r => ∀ w ∈ r.fields, w.Within K := by
  unfold ofValue?
  split
  · exact gives_ok (Value.within_tuple.mp h)
  · exact gives_error

theorem gives_field (h : ∀ w ∈ r.fields, w.Within K) : Gives (r.field p) (·.Within K) := by
  unfold field
  refine .ite gives_error ?_
  split
  · rename_i w hw
    exact gives_ok (h w (List.mem_of_getElem? hw))
  · exact gives_error

theorem gives_set (h : ∀ w ∈ r.fields, w.Within K) (hv : v.Within K) : Gives (r.set p v) (·.value.Within K) := by
  refine .ite gives_error ((Value.gives_coerce hv).map fun w hw => Value.within_tuple.mpr fun x hx => ?_)
  rcases List.mem_or_eq_of_mem_set hx with hx | rfl
  · exact h x hx
  · exact hw

end Row

namespace Collection

variable {c : Collection} {e : Ty} {i : Int64} {v : Value} {vs : List Value}

theorem gives_ofValue? (h : v.Within K) : Gives (ofValue? v) fun c => ∀ w ∈ c.items, w.Within K := by
  unfold ofValue?
  split
  · exact gives_ok (Value.within_collection.mp h)
  · exact gives_error

theorem gives_ofValues (h : ∀ v ∈ vs, v.Within K) : Gives (ofValues vs) fun c => ∀ w ∈ c.items, w.Within K := by
  unfold ofValues
  split
  · exact gives_error
  · exact (Value.gives_coerceAll h).map fun _ hws => hws

theorem gives_get (h : ∀ w ∈ c.items, w.Within K) : Gives (c.get i) (·.Within K) := by
  unfold get
  split
  · exact gives_error
  · split
    · rename_i w hw
      exact gives_ok (h w (List.mem_of_getElem? hw))
    · exact gives_error

theorem gives_fitAll (e : Ty) (h : ∀ v ∈ vs, v.Within K) : Gives (fitAll e vs).2 fun ws => ∀ w ∈ ws, w.Within K := by
  induction vs generalizing e with
  | nil => exact gives_ok nofun
  | cons v vs ih =>
    obtain ⟨hv, hvs⟩ := List.forall_mem_cons.mp h
    unfold fitAll
    have hw : Gives (fit e v).2 (·.Within K) := Value.gives_coerce hv
    split
    · exact gives_error
    · rename_i e' w hfit
      have hws := ih e' hvs
      split
      · exact gives_error
      · rename_i e'' ws hfits
        exact gives_ok (List.forall_mem_cons.mpr ⟨hw w (by rw [hfit]), hws ws (by rw [hfits])⟩)

theorem within_insertAll (h : ∀ w ∈ c.items, w.Within K) (hvs : ∀ v ∈ vs, v.Within K) :
    (c.insertAll i vs).1.value.Within K := by
  have hws := gives_fitAll c.element hvs
  refine Value.within_collection.mpr ?_
  unfold insertAll
  split
  · exact h
  · split
    · exact h
    · rename_i e ws hfits
      intro x hx
      simp only [List.mem_append] at hx
      rcases hx with (hx | hx) | hx
      · exact h x (List.mem_of_mem_take hx)
      · exact hws ws (by rw [hfits]) x hx
      · exact h x (List.mem_of_mem_drop hx)

theorem within_put (h : ∀ w ∈ c.items, w.Within K) (hv : v.Within K) : (c.put i v).1.value.Within K := by
  have hw : Gives (fit c.element v).2 (·.Within K) := Value.gives_coerce hv
  refine Value.within_collection.mpr ?_
  unfold put
  split
  · exact h
  · split
    · exact h
    · rename_i e w hfit
      intro x hx
      rcases List.mem_or_eq_of_mem_set hx with hx | rfl
      · exact h x hx
      · exact hw _ (by rw [hfit])

theorem within_remove (h : ∀ w ∈ c.items, w.Within K) : (c.remove i).1.value.Within K := by
  refine Value.within_collection.mpr ?_
  unfold remove
  split
  · exact h
  · exact fun x hx => h x (List.mem_of_mem_eraseIdx hx)

theorem gives_retype (h : ∀ w ∈ c.items, w.Within K) : Gives (c.retype e) (·.value.Within K) :=
  (Value.gives_coerceAll h).map fun _ hws => Value.within_collection.mpr hws

end Collection

/-! ## Methods -/

namespace Value

variable {v item : Value} {i : Int64} {m : Member} {args : List Value}

theorem gives_atPosition (h : v.Within K) : Gives (v.atPosition i m) (·.Within K) := by
  unfold atPosition
  split
  · exact gives_map fun _ => within_bare rfl
  · exact gives_map fun _ => within_bare rfl
  · exact Collection.gives_get (within_collection.mp h)
  · exact gives_error

/-- A method that only reads. -/
theorem gives_access (h : v.Within K) : Gives (v.access m args) (·.Within K) := by
  unfold access
  split
  · exact gives_bind fun _ => gives_bind fun _ => gives_bare rfl
  · split
    · exact gives_bind fun _ => gives_bind fun _ => gives_atPosition h
    · exact gives_error

theorem within_orUnchanged {r : Except Fault.Cause Value} (h : v.Within K) (hr : Gives r (·.Within K)) :
    (v.orUnchanged r).1.Within K := by
  cases r with
  | ok w => exact hr w rfl
  | error c => exact h

theorem within_insert (h : v.Within K) (hi : item.Within K) : (v.insert i item m).1.Within K := by
  unfold insert
  split
  · exact within_orUnchanged h (gives_map fun _ => within_bare rfl)
  · exact within_orUnchanged h (gives_map fun _ => within_bare rfl)
  · have hitem : ∀ x ∈ [item], x.Within K := List.forall_mem_singleton.mpr hi
    simp only []
    split
    · split
      · exact Collection.within_insertAll (within_collection.mp h) (within_collection.mp hi)
      · exact Collection.within_insertAll (within_collection.mp h) hitem
    · exact Collection.within_insertAll (within_collection.mp h) hitem
  · exact h

theorem within_put (h : v.Within K) (hi : item.Within K) : (v.put i item m).1.Within K := by
  unfold put
  split
  · exact within_orUnchanged h (gives_map fun _ => within_bare rfl)
  · exact within_orUnchanged h (gives_map fun _ => within_bare rfl)
  · exact Collection.within_put (within_collection.mp h) hi
  · exact h

theorem within_delete (h : v.Within K) : (v.delete i m).1.Within K := by
  unfold delete
  split
  · exact within_orUnchanged h (gives_map fun _ => within_bare rfl)
  · exact within_orUnchanged h (gives_map fun _ => within_bare rfl)
  · exact Collection.within_remove (within_collection.mp h)
  · exact h

theorem within_withIndex {index : Value} {step : Int64 → Value × Except Fault.Cause Unit} (h : v.Within K)
    (hs : ∀ i, (step i).1.Within K) : (v.withIndex index step).1.Within K := by
  unfold withIndex
  split
  · exact hs _
  · exact h

/-- A method that changes its receiver. -/
theorem within_mutate (h : v.Within K) (hargs : ∀ a ∈ args, a.Within K) : (v.mutate m args).1.Within K := by
  unfold mutate
  split
  · refine within_orUnchanged h ((Row.gives_ofValue? h).bind fun r hr => ?_)
    exact (Row.gives_set hr (by simpa using hargs)).bind fun _ hw => gives_pure hw
  · exact within_withIndex h fun _ => within_insert h (hargs _ (by simp))
  · exact within_withIndex h fun _ => within_put h (hargs _ (by simp))
  · unfold append
    split
    · exact within_insert h (hargs _ (by simp))
    · exact h
  · exact within_withIndex h fun _ => within_delete h
  · split <;> exact h

end Value

/-! ## Operators -/

namespace Operation

open Value

variable {op : BinaryOp} {l r : Value}

theorem within_ofTruth (a : Option Bool) : (ofTruth a).Within K := by
  cases a <;> exact within_bare rfl

theorem gives_arithmetic {t : Ty} : Gives (arithmetic op t l r) (·.Within K) := by
  unfold arithmetic
  split
  · exact gives_bind fun _ => gives_bind fun _ => gives_bind fun _ => gives_bare rfl
  · exact gives_bind fun _ => gives_bind fun _ => gives_bind fun _ => gives_bare rfl
  · exact gives_bind fun _ => gives_bind fun _ => gives_bind fun _ => gives_bare rfl
  · exact gives_error

theorem gives_bits : Gives (bits op l r) (·.Within K) := by
  unfold bits
  split
  · split <;> first | exact gives_bare rfl | exact gives_error
  · split <;> first | exact gives_bare rfl | exact gives_error
  · exact gives_error

theorem gives_logical : Gives (logical op l r) (·.Within K) :=
  gives_bind fun _ => gives_bind fun _ => gives_pure (within_ofTruth _)

theorem gives_comparison : Gives (comparison op l r) (·.Within K) := by
  refine .ite (gives_ok ?_) (.ite (gives_bare rfl) ?_)
  · unfold nulls
    split <;> exact within_bare rfl
  · split
    case h_1 | h_2 => exact gives_bare rfl
    case h_7 => exact gives_error
    all_goals exact gives_map fun _ => within_bare rfl

theorem gives_concat : Gives (concat l r) (·.Within K) := by
  unfold concat
  split
  · exact gives_error
  · refine .ite (gives_bare rfl) ?_
    split <;> exact gives_bare rfl

theorem gives_power : Gives (power l r) (·.Within K) := by
  unfold power
  split
  · exact gives_error
  · refine .ite (gives_bare rfl) ?_
    split
    · exact gives_bind fun _ => gives_bind fun _ => .ite (gives_bare rfl) (.ite gives_error (gives_bare rfl))
    · exact gives_bind fun _ => gives_bind fun _ => .ite gives_error (gives_bare rfl)
    · exact gives_bind fun _ => gives_bind fun _ => gives_bind fun _ => gives_bare rfl

theorem gives_matching {cache : Pattern.Cache} : Gives (matching l r cache).1 (·.Within K) := by
  unfold matching
  split
  · exact gives_error
  · exact gives_error
  · split
    · exact gives_bare rfl
    · exact gives_error

theorem gives_combine {t : Ty} : Gives (combine op t l r) (·.Within K) := by
  unfold combine
  split
  · exact .ite gives_concat gives_arithmetic
  · exact gives_power
  case h_8 => exact gives_arithmetic
  all_goals exact gives_bits

end Operation

open Operation in
theorem BinaryOp.gives_apply {op : BinaryOp} {l r : Value} {cache : Pattern.Cache} :
    Gives (op.apply l r cache).1 (·.Within K) := by
  unfold apply
  split
  · exact gives_error
  · split
    · exact gives_comparison
    · split
      · exact gives_logical
      · split
        · exact Value.gives_bare rfl
        · split
          · exact gives_matching
          · exact gives_combine

theorem UnaryOp.gives_apply {op : UnaryOp} {v : Value} (h : v.Within K) : Gives (op.apply v) (·.Within K) := by
  unfold apply
  split
  · exact gives_error
  · refine .ite (Value.gives_bare rfl) ?_
    split
    case h_4 => exact gives_ok h
    all_goals first | exact Value.gives_bare rfl | exact gives_error

/-! ## Functions -/

namespace Library

open Value

variable {v w : Value}

theorem gives_toBoolean : Gives (toBoolean v) (·.Within K) := by
  unfold toBoolean
  split
  case h_5 => exact .ite (gives_bare rfl) (.ite (gives_bare rfl) (gives_map fun _ => within_bare rfl))
  all_goals first | exact gives_bare rfl | exact gives_error

theorem gives_toNumeric : Gives (toNumeric v) (·.Within K) := by
  unfold toNumeric
  split
  case h_4 | h_5 => exact gives_map fun _ => within_bare rfl
  all_goals first | exact gives_bare rfl | exact gives_error

theorem gives_toInteger : Gives (toInteger v) (·.Within K) := by
  unfold toInteger
  split
  case h_3 => exact gives_map fun _ => within_bare rfl
  case h_4 => exact gives_bind fun _ => gives_bind fun _ => gives_bare rfl
  case h_5 =>
    split
    · exact gives_bare rfl
    · exact gives_bind fun _ => gives_bind fun _ => gives_bare rfl
  all_goals first | exact gives_bare rfl | exact gives_error

theorem gives_table (h : w.Within K) : Gives (table v w) (·.Within K) := by
  refine .ite (gives_bare rfl) (gives_bind fun n => gives_bind fun n => gives_bind fun n => ?_)
  refine (Collection.gives_ofValues fun x hx => ?_).bind fun c hc => (Collection.gives_retype hc).bind fun _ hd =>
    gives_pure hd
  exact List.eq_of_mem_replicate hx ▸ h

theorem gives_hex {width : Option Value} : Gives (hex v width) (·.Within K) := by
  refine gives_bind fun n => ?_
  cases width with
  | none => exact gives_bind fun _ => gives_bare rfl
  | some w => exact gives_bind fun _ => gives_bind fun _ => gives_bare rfl

theorem gives_hash {bound : Option Value} : Gives (hash v bound) (·.Within K) := by
  refine gives_bind fun bytes => ?_
  cases bound with
  | none => exact gives_bind fun _ => .ite (gives_bare rfl) gives_error
  | some m => exact gives_bind fun _ => .ite (gives_bare rfl) gives_error

theorem gives_base64Decode : Gives (base64Decode v) (·.Within K) := by
  refine gives_bind fun s => ?_
  split
  · exact gives_bare rfl
  · exact gives_error

theorem gives_toBytes : Gives (toBytes v) (·.Within K) := by
  unfold toBytes
  split
  · exact gives_bare rfl
  · exact gives_bind fun _ => gives_bind fun _ => gives_bind fun _ => gives_bare rfl

theorem gives_byKind {real : Float → Float} {complex : Imaginary → Imaginary} :
    Gives (byKind real complex v) (·.Within K) := by
  unfold byKind
  split
  · exact gives_bare rfl
  · exact gives_map fun _ => within_bare rfl

theorem gives_abs : Gives (abs v) (·.Within K) := by
  unfold abs
  split
  · exact gives_bare rfl
  · exact gives_bare rfl
  · exact gives_map fun _ => within_bare rfl

theorem gives_best {pick : Ordering} {v : Value} {vs : List Value} (hv : v.Within K) (hvs : ∀ w ∈ vs, w.Within K) :
    Gives (best pick v vs) (·.Within K) := by
  induction vs generalizing v with
  | nil => exact gives_ok hv
  | cons w ws ih =>
    obtain ⟨hw, hws⟩ := List.forall_mem_cons.mp hvs
    unfold best
    split
    · exact gives_error
    · refine ih ?_ hws
      split
      · exact hw
      · exact hv

theorem gives_extremum {b : Builtin} {pick : Ordering} {vs : List Value} (hvs : ∀ w ∈ vs, w.Within K) :
    Gives (extremum b pick vs) (·.Within K) := by
  unfold extremum
  split
  · exact gives_error
  · rename_i v ws
    obtain ⟨hv, hws⟩ := List.forall_mem_cons.mp hvs
    have h : Gives (best pick v ws) (·.Within K) := gives_best hv hws
    split
    · exact gives_error
    · rename_i w hw
      exact gives_coerce (h w hw)

theorem gives_clamp {low high : Value} (hv : v.Within K) (hl : low.Within K) (hh : high.Within K) :
    Gives (clamp v low high) (·.Within K) := by
  refine gives_bind fun between => .ite gives_error (gives_bind fun below => .ite (gives_coerce hl) ?_)
  exact gives_bind fun above => .ite (gives_coerce hh) (gives_coerce hv)

theorem gives_round {digits : Int} : Gives (round v digits) (·.Within K) := by
  unfold round
  split
  · exact gives_bare rfl
  · exact gives_byKind

theorem gives_sqrt : Gives (sqrt v) (·.Within K) := by
  unfold sqrt
  split
  · exact gives_bare rfl
  · refine gives_map fun x => ?_
    split <;> exact within_bare rfl

theorem gives_logarithm {real : Float → Float} {complex : Imaginary → Imaginary} :
    Gives (logarithm real complex v) (·.Within K) := by
  unfold logarithm
  split
  · exact .ite gives_error (gives_bare rfl)
  · exact gives_bind fun x => .ite (gives_bare rfl) (.ite gives_error (gives_bare rfl))

theorem gives_inverse {name : String} {f : Float → Float} : Gives (inverse name f v) (·.Within K) :=
  gives_bind fun _ => .ite (gives_bare rfl) gives_error

theorem gives_imag : Gives (imag v w) (·.Within K) := gives_bind fun _ => gives_bind fun _ => gives_bare rfl

theorem gives_onText {f : List Char → List Char} : Gives (onText f v) (·.Within K) :=
  gives_map fun _ => within_bare rfl

theorem gives_substring {length : Option Value} : Gives (substring v w length) (·.Within K) := by
  refine gives_bind fun s => gives_bind fun i => gives_bind fun start => ?_
  cases length with
  | none => exact gives_bare rfl
  | some n => exact gives_bind fun n => gives_bind fun n => gives_bare rfl

theorem gives_lastPart : Gives (lastPart v w) (·.Within K) :=
  gives_bind fun _ => gives_bind fun _ => gives_bind fun _ => gives_bare rfl

theorem gives_ofCode : Gives (ofCode v) (·.Within K) := gives_bind fun _ => gives_bind fun _ => gives_bare rfl

end Library

open Library Value in
/-- A function of its arguments. -/
theorem Builtin.gives_compute {b : Builtin} {args : List Value} (h : ∀ v ∈ args, v.Within K) :
    Gives (b.compute args) (·.Within K) := by
  unfold compute
  split
  case h_1 => exact gives_abs
  case h_2 | h_3 => exact gives_extremum h
  case h_4 => exact gives_clamp (h _ (by simp)) (h _ (by simp)) (h _ (by simp))
  case h_5 => exact gives_round
  case h_6 => exact gives_bind fun _ => gives_round
  case h_7 | h_8 | h_10 | h_13 | h_14 | h_15 | h_16 | h_17 | h_18 => exact gives_byKind
  case h_9 => exact gives_sqrt
  case h_11 | h_12 => exact gives_logarithm
  case h_19 | h_20 => exact gives_inverse
  case h_21 | h_24 | h_25 | h_30 => exact gives_map fun _ => within_bare rfl
  case h_22 => exact Operation.gives_power
  case h_23 => exact gives_imag
  case h_26 | h_27 => exact gives_hex
  case h_28 | h_29 => exact gives_hash
  case h_31 => exact gives_base64Decode
  case h_32 => exact gives_toBytes
  case h_33 | h_34 | h_35 | h_36 | h_37 => exact gives_onText
  case h_38 | h_39 => exact gives_substring
  case h_40 => exact gives_lastPart
  case h_41 => exact gives_ofCode
  case h_42 => exact gives_toBoolean
  case h_43 => exact gives_toNumeric
  case h_44 => exact gives_toInteger
  case h_45 | h_46 | h_47 => exact gives_bare rfl
  case h_48 => exact gives_ok (within_tuple.mpr h)
  case h_49 => exact gives_table (h _ (by simp))
  case h_50 => exact gives_bind fun _ => .ite (gives_bare rfl) gives_error
  case h_51 => exact gives_error

end Crunch
