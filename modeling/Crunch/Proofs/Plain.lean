import Crunch.Call
import Crunch.Operation
import Crunch.Slot
import Crunch.Value.Method

/-!
# Crunch.Proofs.Plain

Failures for something unknown come from the state alone.

* `Fault.Cause.isUnknown`: a variable, a function or a type of some name is not known.
* `Plain`: a computation that never fails for such a cause.
* `Slot.plain_store`, `Value.plain_access`, `Value.plain_mutate`, `BinaryOp.plain_apply`,
  `UnaryOp.plain_apply`, `Builtin.plain_compute`: so are all computations on values.
-/

namespace Crunch

/-- Whether a variable, a function or a type of some name is not known. -/
def Fault.Cause.isUnknown : Fault.Cause → Bool
  | .unknownVariable _ | .unknownFunction _ | .unknownType _ => true
  | _ => false

/-- A computation that never fails for something unknown. -/
def Plain {α : Type} (r : Except Fault.Cause α) : Prop := ∀ c, r = .error c → c.isUnknown = false

/-! ## One rule for each construct -/

section Rules

variable {α β : Type} {r r' : Except Fault.Cause α}

theorem plain_ok {a : α} : Plain (.ok a) := nofun

theorem plain_pure {a : α} : Plain (pure a) := nofun

theorem plain_error {c : Fault.Cause} (h : c.isUnknown = false) : Plain (.error c : Except Fault.Cause α) :=
  fun _ hd => Except.error.inj hd ▸ h

theorem Plain.map {f : α → β} (h : Plain r) : Plain (r.map f) := by
  cases r with
  | ok a => exact plain_ok
  | error c => exact plain_error (h c rfl)

theorem Plain.bind {f : α → Except Fault.Cause β} (h : Plain r) (hf : ∀ a, Plain (f a)) : Plain (r >>= f) := by
  cases r with
  | ok a => exact hf a
  | error c => exact plain_error (h c rfl)

theorem Plain.ite {p : Prop} [Decidable p] (h : Plain r) (h' : Plain r') : Plain (if p then r else r') := by
  split
  · exact h
  · exact h'

end Rules

/-! ## Counts -/

section Counts

variable {n : Int64} {size : Nat}

theorem plain_elementPosition : Plain (elementPosition n size) := .ite plain_ok (plain_error rfl)

theorem plain_gapPosition : Plain (gapPosition n size) := .ite plain_ok (plain_error rfl)

theorem plain_count {what : String} : Plain (count n what) := .ite plain_ok (plain_error rfl)

theorem plain_room {width : Nat} {what : String} : Plain (room size width what) := .ite plain_ok (plain_error rfl)

theorem plain_byte : Plain (byte n) := .ite plain_ok (plain_error rfl)

theorem plain_truncate {x : Float} : Plain (truncate x) := by
  unfold truncate
  split <;> first | exact plain_ok | exact plain_error rfl

theorem plain_character : Plain (character n) := .ite plain_ok (plain_error rfl)

theorem plain_narrowCharacter : Plain (narrowCharacter n) := .ite plain_ok (plain_error rfl)

end Counts

/-! ## Values of a kind -/

namespace Value

variable {v w : Value} {t : Ty}

theorem plain_mismatch {α : Type} {what : String} : Plain (.error (v.mismatch what) : Except Fault.Cause α) := by
  refine plain_error ?_
  unfold mismatch
  split <;> rfl

theorem plain_noMethod {α : Type} {m : Member} : Plain (.error (v.noMethod m) : Except Fault.Cause α) := by
  refine plain_error ?_
  unfold noMethod
  split <;> rfl

theorem plain_integer? : Plain v.integer? := by
  unfold integer?
  split <;> first | exact plain_ok | exact plain_mismatch

theorem plain_numeric? : Plain v.numeric? := by
  unfold numeric?
  split <;> first | exact plain_ok | exact plain_mismatch

theorem plain_imaginary? : Plain v.imaginary? := by
  unfold imaginary?
  split <;> first | exact plain_ok | exact plain_mismatch

theorem plain_literal? : Plain v.literal? := by
  unfold literal?
  split <;> first | exact plain_ok | exact plain_mismatch

theorem plain_tabchar? : Plain v.tabchar? := by
  unfold tabchar?
  split <;> first | exact plain_ok | exact plain_mismatch

theorem plain_condition : Plain v.condition := by
  unfold condition
  split
  · exact plain_ok
  · exact .ite plain_ok (plain_error rfl)
  · exact plain_mismatch

/-! ## Conversions -/

theorem plain_convert : Plain (v.convert t) := by
  unfold convert
  split
  · exact plain_ok
  · exact .ite plain_ok (.ite plain_ok plain_ok)
  · exact .ite plain_ok (.ite (Plain.map plain_truncate) plain_ok)
  · exact plain_ok

mutual

theorem plain_coerce (v : Value) (t : Ty) : Plain (v.coerce t) := by
  cases v with
  | collection e items =>
    rw [coerce]
    refine .ite plain_ok (.ite (plain_error rfl) (.ite plain_ok ?_))
    split
    · rename_i e' _
      have h := plain_coerceAll items e'
      split
      · exact plain_ok
      · rename_i c hc
        exact plain_error (h c hc)
    · exact plain_ok
  | _ =>
    rw [coerce]
    · exact .ite plain_ok (.ite (plain_error rfl) plain_convert)
    · nofun

theorem plain_coerceAll (vs : List Value) (t : Ty) : Plain (coerceAll vs t) := by
  cases vs with
  | nil =>
    rw [coerceAll]
    exact plain_ok
  | cons v vs =>
    rw [coerceAll]
    have h := plain_coerce v t
    have hs := plain_coerceAll vs t
    split
    · rename_i c hc
      exact plain_error (h c hc)
    · split
      · rename_i c hc
        exact plain_error (hs c hc)
      · exact plain_ok

end

end Value

theorem Slot.plain_store {slot : Slot} {v : Value} : Plain (slot.store v) := Plain.map (Value.plain_coerce _ _)

/-! ## Tuples and collections -/

namespace Row

variable {r : Row} {p : Nat} {v : Value}

theorem plain_ofValue? : Plain (ofValue? v) := by
  unfold ofValue?
  split <;> first | exact plain_ok | exact Value.plain_mismatch

theorem plain_field : Plain (r.field p) := by
  unfold field
  split
  · exact plain_error rfl
  · split <;> first | exact plain_ok | exact plain_error rfl

theorem plain_set : Plain (r.set p v) := .ite (plain_error rfl) (Plain.map (Value.plain_coerce _ _))

end Row

namespace Collection

variable {c : Collection} {e : Ty} {i : Int64} {v : Value}

theorem plain_ofValue? : Plain (ofValue? v) := by
  unfold ofValue?
  split <;> first | exact plain_ok | exact Value.plain_mismatch

theorem plain_unifyAll (e : Ty) (vs : List Value) : Plain (unifyAll e vs) := by
  induction vs generalizing e with
  | nil => exact plain_ok
  | cons v vs ih =>
    unfold unifyAll
    split
    · exact ih _
    · exact plain_error rfl

theorem plain_ofValues {vs : List Value} : Plain (ofValues vs) := by
  unfold ofValues
  have h := plain_unifyAll Ty.untyped vs
  split
  · rename_i x hx
    exact plain_error (h x hx)
  · exact .map (Value.plain_coerceAll _ _)

theorem plain_get : Plain (c.get i) := by
  unfold get
  have h : Plain (elementPosition i c.size) := plain_elementPosition
  split
  · rename_i x hx
    exact plain_error (h x hx)
  · split <;> first | exact plain_ok | exact plain_error rfl

theorem plain_fitAll (e : Ty) (vs : List Value) : Plain (fitAll e vs).2 := by
  induction vs generalizing e with
  | nil => exact plain_ok
  | cons v vs ih =>
    unfold fitAll
    have h : Plain (fit e v).2 := Value.plain_coerce _ _
    split
    · rename_i e' x hx
      exact plain_error (h x (by rw [hx]))
    · rename_i e' w _
      have hs := ih e'
      split
      · rename_i e'' x hx
        exact plain_error (hs x (by rw [hx]))
      · exact plain_ok

theorem plain_insertAll {vs : List Value} : Plain (c.insertAll i vs).2 := by
  unfold insertAll
  have h : Plain (gapPosition i c.size) := plain_gapPosition
  split
  · rename_i x hx
    exact plain_error (h x hx)
  · have hs := plain_fitAll c.element vs
    split
    · rename_i e x hx
      exact plain_error (hs x (by rw [hx]))
    · exact plain_ok

theorem plain_put : Plain (c.put i v).2 := by
  unfold put
  have h : Plain (elementPosition i c.size) := plain_elementPosition
  split
  · rename_i x hx
    exact plain_error (h x hx)
  · have hs : Plain (fit c.element v).2 := Value.plain_coerce _ _
    split
    · rename_i e x hx
      exact plain_error (hs x (by rw [hx]))
    · exact plain_ok

theorem plain_remove : Plain (c.remove i).2 := by
  unfold remove
  have h : Plain (elementPosition i c.size) := plain_elementPosition
  split
  · rename_i x hx
    exact plain_error (h x hx)
  · exact plain_ok

theorem plain_retype : Plain (c.retype e) := Plain.map (Value.plain_coerceAll _ _)

end Collection

/-! ## Methods -/

namespace Value

variable {v item : Value} {i : Int64} {m : Member} {args : List Value}

theorem plain_countOf : Plain (v.countOf m) := by
  unfold countOf
  split <;> first | exact plain_ok | exact plain_noMethod

theorem plain_atPosition : Plain (v.atPosition i m) := by
  unfold atPosition
  split
  · exact .map plain_elementPosition
  · exact .map plain_elementPosition
  · exact Collection.plain_get
  · exact plain_noMethod

theorem plain_expectArguments {n : Nat} : Plain (expectArguments m args n) := .ite plain_ok (plain_error rfl)

/-- A method that only reads. -/
theorem plain_access : Plain (v.access m args) := by
  unfold access
  split
  · exact .bind plain_expectArguments fun _ => .bind plain_countOf fun _ => plain_pure
  · split
    · exact .bind plain_expectArguments fun _ => .bind plain_integer? fun _ => plain_atPosition
    · exact plain_noMethod

theorem plain_literalItem : Plain (literalItem item) := by
  unfold literalItem
  split
  · exact .map plain_narrowCharacter
  · exact plain_ok
  · exact plain_error rfl

theorem plain_bytesItem : Plain (bytesItem item) := by
  unfold bytesItem
  split
  · exact .map plain_byte
  · exact plain_ok
  · exact plain_ok
  · exact plain_error rfl

theorem plain_inserted {α : Type} {items : List α} {more : Except Fault.Cause (List α)} (h : Plain more) :
    Plain (inserted items i more) :=
  .bind plain_gapPosition fun _ => .bind h fun _ => plain_pure

theorem plain_replaced {α : Type} {items : List α} {item : Except Fault.Cause α} (h : Plain item) :
    Plain (replaced items i item) :=
  .bind plain_elementPosition fun _ => .bind h fun _ => plain_pure

theorem plain_erased {α : Type} {items : List α} : Plain (erased items i) := Plain.map plain_elementPosition

theorem plain_insertedText {s : String} {more : Except Fault.Cause (List Char)} (h : Plain more) :
    Plain (insertedText s i more) :=
  .bind plain_gapPosition fun _ => .bind h fun _ => plain_pure

theorem plain_replacedText {s : String} {c : Except Fault.Cause Char} (h : Plain c) : Plain (replacedText s i c) :=
  .bind plain_elementPosition fun _ => .bind h fun _ => plain_pure

theorem plain_erasedText {s : String} : Plain (erasedText s i) := Plain.map plain_elementPosition

theorem plain_orUnchanged {r : Except Fault.Cause Value} (h : Plain r) : Plain (v.orUnchanged r).2 := by
  cases r with
  | ok w => exact plain_ok
  | error c => exact plain_error (h c rfl)

theorem plain_insert : Plain (v.insert i item m).2 := by
  unfold insert
  split
  · exact plain_orUnchanged (Plain.map (plain_insertedText plain_literalItem))
  · exact plain_orUnchanged (Plain.map (plain_inserted plain_bytesItem))
  · simp only []
    split
    · split
      · exact .map Collection.plain_insertAll
      · exact .map Collection.plain_insertAll
    · exact .map Collection.plain_insertAll
  · exact plain_noMethod

theorem plain_put : Plain (v.put i item m).2 := by
  unfold put
  split
  · exact plain_orUnchanged (Plain.map (plain_replacedText (.bind plain_integer? fun _ => plain_narrowCharacter)))
  · exact plain_orUnchanged (Plain.map (plain_replaced (.bind plain_integer? fun _ => plain_byte)))
  · exact .map Collection.plain_put
  · exact plain_noMethod

theorem plain_delete : Plain (v.delete i m).2 := by
  unfold delete
  split
  · exact plain_orUnchanged (Plain.map plain_erasedText)
  · exact plain_orUnchanged (Plain.map plain_erased)
  · exact .map Collection.plain_remove
  · exact plain_noMethod

theorem plain_append : Plain (v.append item m).2 := by
  unfold append
  have h := plain_countOf (v := v) (m := m)
  split
  · exact plain_insert
  · rename_i c hc
    exact plain_error (h c hc)

theorem plain_withIndex {index : Value} {step : Int64 → Value × Except Fault.Cause Unit} (h : ∀ i, Plain (step i).2) :
    Plain (v.withIndex index step).2 := by
  unfold withIndex
  have hi := plain_integer? (v := index)
  split
  · exact h _
  · rename_i c hc
    exact plain_error (hi c hc)

/-- A method that changes its receiver. -/
theorem plain_mutate : Plain (v.mutate m args).2 := by
  unfold mutate
  split
  · exact plain_orUnchanged (.bind Row.plain_ofValue? fun _ => .bind Row.plain_set fun _ => plain_pure)
  · exact plain_withIndex fun _ => plain_insert
  · exact plain_withIndex fun _ => plain_put
  · exact plain_append
  · exact plain_withIndex fun _ => plain_delete
  · split
    · exact plain_error rfl
    · exact plain_noMethod

end Value

/-! ## Operators -/

namespace Operation

variable {op : BinaryOp} {l r : Value}

theorem plain_integers {a b : Int64} : Plain (integers op a b) := by
  unfold integers
  split
  case h_4 | h_5 => exact .ite (plain_error rfl) plain_ok
  all_goals first | exact plain_ok | exact plain_error rfl

theorem plain_numerics {a b : Float} : Plain (numerics op a b) := by
  unfold numerics
  split
  case h_4 | h_5 => exact .ite (plain_error rfl) plain_ok
  all_goals first | exact plain_ok | exact plain_error rfl

theorem plain_imaginaries {a b : Imaginary} : Plain (imaginaries op a b) := by
  unfold imaginaries
  split
  case h_4 => exact .ite (plain_error rfl) plain_ok
  all_goals first | exact plain_ok | exact plain_error rfl

theorem plain_arithmetic {t : Ty} : Plain (arithmetic op t l r) := by
  unfold arithmetic
  split
  · exact .bind Value.plain_integer? fun _ => .bind Value.plain_integer? fun _ => .bind plain_integers fun _ => plain_pure
  · exact .bind Value.plain_numeric? fun _ => .bind Value.plain_numeric? fun _ => .bind plain_numerics fun _ => plain_pure
  · exact .bind Value.plain_imaginary? fun _ => .bind Value.plain_imaginary? fun _ =>
      .bind plain_imaginaries fun _ => plain_pure
  · exact plain_error rfl

theorem plain_bits : Plain (bits op l r) := by
  unfold bits
  split
  · split <;> first | exact plain_ok | exact plain_error rfl
  · split <;> first | exact plain_ok | exact plain_error rfl
  · exact plain_error rfl

theorem plain_truth {v : Value} : Plain (truth op v) := by
  unfold truth
  split
  · exact plain_ok
  · exact .ite plain_ok (plain_error rfl)
  · exact plain_error rfl

theorem plain_logical : Plain (logical op l r) := .bind plain_truth fun _ => .bind plain_truth fun _ => plain_pure

theorem plain_order : Plain (order l r) := by
  unfold order
  split
  · exact plain_ok
  · split <;> first | exact plain_ok | exact plain_error rfl

theorem plain_comparison : Plain (comparison op l r) := by
  refine .ite plain_ok (.ite plain_ok ?_)
  split
  case h_1 | h_2 => exact plain_ok
  case h_7 => exact plain_error rfl
  all_goals exact .map plain_order

theorem plain_concat : Plain (concat l r) := by
  unfold concat
  split
  · exact plain_error rfl
  · refine .ite plain_ok ?_
    split <;> exact plain_ok

theorem plain_imaginaryPower {b e : Imaginary} : Plain (imaginaryPower b e) :=
  .ite plain_ok (.ite plain_ok (.ite plain_ok (plain_error rfl)))

theorem plain_power : Plain (power l r) := by
  unfold power
  split
  · exact plain_error rfl
  · refine .ite plain_ok ?_
    split
    · exact .bind Value.plain_integer? fun _ => .bind Value.plain_integer? fun _ =>
        .ite plain_pure (.ite (plain_error rfl) plain_pure)
    · exact .bind Value.plain_numeric? fun _ => .bind Value.plain_numeric? fun _ => .ite (plain_error rfl) plain_pure
    · exact .bind Value.plain_imaginary? fun _ => .bind Value.plain_imaginary? fun _ =>
        .bind plain_imaginaryPower fun _ => plain_pure

theorem plain_matching {cache : Pattern.Cache} : Plain (matching l r cache).1 := by
  unfold matching
  have hl := Value.plain_literal? (v := l)
  have hr := Value.plain_literal? (v := r)
  split
  · rename_i c hc
    exact plain_error (hl c hc)
  · rename_i c hc _
    exact plain_error (hr c hc)
  · split <;> first | exact plain_ok | exact plain_error rfl

theorem plain_combine {t : Ty} : Plain (combine op t l r) := by
  unfold combine
  split
  · exact .ite plain_concat plain_arithmetic
  · exact plain_power
  case h_8 => exact plain_arithmetic
  all_goals exact plain_bits

end Operation

open Operation in
theorem BinaryOp.plain_apply {op : BinaryOp} {l r : Value} {cache : Pattern.Cache} :
    Plain (op.apply l r cache).1 := by
  unfold apply
  split
  · exact plain_error rfl
  · split
    · exact plain_comparison
    · split
      · exact plain_logical
      · split
        · exact plain_ok
        · split
          · exact plain_matching
          · exact plain_combine

theorem UnaryOp.plain_apply {op : UnaryOp} {v : Value} : Plain (op.apply v) := by
  unfold apply
  split
  · exact plain_error rfl
  · refine .ite plain_ok ?_
    split <;> first | exact plain_ok | exact plain_error rfl

/-! ## Functions -/

namespace Library

variable {v w : Value}

theorem plain_readNumeric {s : String} : Plain (readNumeric s) := by
  unfold readNumeric
  split <;> first | exact plain_ok | exact plain_error rfl

theorem plain_realPart {z : Imaginary} {what : String} : Plain (realPart z what) := .ite plain_ok (plain_error rfl)

theorem plain_toBoolean : Plain (toBoolean v) := by
  unfold toBoolean
  split
  case h_5 => exact .ite plain_ok (.ite plain_ok (Plain.map plain_readNumeric))
  all_goals first | exact plain_ok | exact plain_error rfl

theorem plain_toNumeric : Plain (toNumeric v) := by
  unfold toNumeric
  split
  case h_4 => exact .map plain_realPart
  case h_5 => exact .map plain_readNumeric
  all_goals first | exact plain_ok | exact plain_error rfl

theorem plain_toInteger : Plain (toInteger v) := by
  unfold toInteger
  split
  case h_3 => exact .map plain_truncate
  case h_4 => exact .bind plain_realPart fun _ => .bind plain_truncate fun _ => plain_pure
  case h_5 =>
    split
    · exact plain_ok
    · exact .bind plain_readNumeric fun _ => .bind plain_truncate fun _ => plain_pure
  all_goals first | exact plain_ok | exact plain_error rfl

theorem plain_table : Plain (table v w) := by
  refine .ite plain_ok (.bind Value.plain_integer? fun n => .bind plain_count fun n => .bind plain_room fun n => ?_)
  exact .bind Collection.plain_ofValues fun c => .bind Collection.plain_retype fun c => plain_pure

theorem plain_bytesOf : Plain (bytesOf v) := by
  unfold bytesOf
  split
  · exact plain_ok
  · exact Value.plain_tabchar?

theorem plain_hex {width : Option Value} : Plain (hex v width) := by
  unfold hex
  refine .bind Value.plain_integer? fun n => ?_
  cases width with
  | none => exact .bind plain_pure fun _ => plain_pure
  | some w => exact .bind Value.plain_integer? fun _ => .bind plain_count fun _ => plain_pure

theorem plain_hash {bound : Option Value} : Plain (hash v bound) := by
  unfold hash
  refine .bind plain_bytesOf fun bytes => ?_
  cases bound with
  | none => exact .bind plain_pure fun _ => .ite plain_pure (plain_error rfl)
  | some m => exact .bind Value.plain_integer? fun _ => .ite plain_pure (plain_error rfl)

theorem plain_base64Decode : Plain (base64Decode v) := by
  refine .bind Value.plain_literal? fun s => ?_
  split <;> first | exact plain_ok | exact plain_error rfl

theorem plain_toBytes : Plain (toBytes v) := by
  unfold toBytes
  split
  · exact plain_ok
  · refine .bind Value.plain_integer? fun n => .bind plain_count fun n => ?_
    exact .bind plain_room fun n => plain_pure

theorem plain_byKind {real : Float → Float} {complex : Imaginary → Imaginary} : Plain (byKind real complex v) := by
  unfold byKind
  split
  · exact plain_ok
  · exact .map Value.plain_numeric?

theorem plain_abs : Plain (abs v) := by
  unfold abs
  split
  · exact plain_ok
  · exact plain_ok
  · exact .map Value.plain_numeric?

theorem plain_best {pick : Ordering} (v : Value) (vs : List Value) : Plain (best pick v vs) := by
  induction vs generalizing v with
  | nil => exact plain_ok
  | cons w ws ih =>
    unfold best
    have h := Operation.plain_order (l := w) (r := v)
    split
    · rename_i c hc
      exact plain_error (h c hc)
    · exact ih _

theorem plain_extremum {b : Builtin} {pick : Ordering} {vs : List Value} : Plain (extremum b pick vs) := by
  unfold extremum
  split
  · exact plain_error rfl
  · rename_i v ws
    have h : Plain (best pick v ws) := plain_best v ws
    split
    · rename_i c hc
      exact plain_error (h c hc)
    · exact Value.plain_coerce _ _

theorem plain_clamp {low high : Value} : Plain (clamp v low high) := by
  refine .bind Operation.plain_order fun between => .ite (plain_error rfl) ?_
  refine .bind Operation.plain_order fun below => .ite (Value.plain_coerce _ _) ?_
  exact .bind Operation.plain_order fun above => .ite (Value.plain_coerce _ _) (Value.plain_coerce _ _)

theorem plain_decimals : Plain (decimals v) := .bind Value.plain_integer? fun _ => .ite plain_pure (plain_error rfl)

theorem plain_round {digits : Int} : Plain (round v digits) := by
  unfold round
  split
  · exact plain_ok
  · exact plain_byKind

theorem plain_sqrt : Plain (sqrt v) := by
  unfold sqrt
  split
  · exact plain_ok
  · exact .map Value.plain_numeric?

theorem plain_logarithm {real : Float → Float} {complex : Imaginary → Imaginary} :
    Plain (logarithm real complex v) := by
  unfold logarithm
  split
  · exact .ite (plain_error rfl) plain_ok
  · exact .bind Value.plain_numeric? fun x => .ite plain_pure (.ite (plain_error rfl) plain_ok)

theorem plain_inverse {name : String} {f : Float → Float} : Plain (inverse name f v) :=
  .bind Value.plain_numeric? fun _ => .ite plain_pure (plain_error rfl)

theorem plain_imag : Plain (imag v w) := .bind Value.plain_numeric? fun _ => .bind Value.plain_numeric? fun _ => plain_pure

theorem plain_onText {f : List Char → List Char} : Plain (onText f v) := Plain.map Value.plain_literal?

theorem plain_substring {length : Option Value} : Plain (substring v w length) := by
  refine .bind Value.plain_literal? fun s => .bind Value.plain_integer? fun i => .bind plain_gapPosition fun start => ?_
  cases length with
  | none => exact plain_pure
  | some n => exact .bind Value.plain_integer? fun n => .bind plain_count fun n => plain_pure

theorem plain_lastPart : Plain (lastPart v w) :=
  .bind Value.plain_literal? fun _ => .bind Value.plain_integer? fun _ => .bind plain_count fun _ => plain_pure

theorem plain_ofCode : Plain (ofCode v) :=
  .bind Value.plain_integer? fun _ => .bind plain_character fun _ => plain_pure

end Library

namespace Builtin

open Library in
/-- A function of its arguments. -/
theorem plain_compute {b : Builtin} {args : List Value} : Plain (b.compute args) := by
  unfold compute
  split
  case h_1 => exact plain_abs
  case h_2 | h_3 => exact plain_extremum
  case h_4 => exact plain_clamp
  case h_5 => exact plain_round
  case h_6 => exact .bind plain_decimals fun _ => plain_round
  case h_7 | h_8 | h_10 | h_13 | h_14 | h_15 | h_16 | h_17 | h_18 => exact plain_byKind
  case h_9 => exact plain_sqrt
  case h_11 | h_12 => exact plain_logarithm
  case h_19 | h_20 => exact plain_inverse
  case h_21 => exact .map Value.plain_numeric?
  case h_22 => exact Operation.plain_power
  case h_23 => exact plain_imag
  case h_24 | h_25 => exact .map Value.plain_imaginary?
  case h_26 | h_27 => exact plain_hex
  case h_28 | h_29 => exact plain_hash
  case h_30 => exact .map plain_bytesOf
  case h_31 => exact plain_base64Decode
  case h_32 => exact plain_toBytes
  case h_33 | h_34 | h_35 | h_36 | h_37 => exact plain_onText
  case h_38 | h_39 => exact plain_substring
  case h_40 => exact plain_lastPart
  case h_41 => exact plain_ofCode
  case h_42 => exact plain_toBoolean
  case h_43 => exact plain_toNumeric
  case h_44 => exact plain_toInteger
  case h_45 | h_46 | h_47 | h_48 => exact plain_ok
  case h_49 => exact plain_table
  case h_50 => exact .bind Value.plain_condition fun _ => .ite plain_pure (plain_error rfl)
  case h_51 => exact plain_error rfl

/-- The failure for an argument of an unsuitable type. -/
theorem isUnknown_misfit? {b : Builtin} {types : List Ty} {c : Fault.Cause} (h : b.misfit? types = some c) :
    c.isUnknown = false := by
  obtain ⟨⟨t, i⟩, -, hp⟩ := List.exists_of_findSome?_eq_some h
  simp only [Option.ite_none_left_eq_some] at hp
  rw [← Option.some.inj hp.2]
  rfl

end Builtin

end Crunch
