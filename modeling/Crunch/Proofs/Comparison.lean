import Crunch.Operation.Comparison

/-!
# Crunch.Proofs.Comparison

How equality, order and the operators of comparison fit together, apart from numerics and imaginaries.

* `Value.isDiscrete`: a value without numerics and imaginaries at any depth.
* `Value.bare`: a value without the types that its nulls, tuples and collections declare.
* `Operation.equal_iff`: discrete values are equal if their bare values are one and the same.
* `Operation.Scale`: a kind of values that are ordered by their contents. Integers, literals, byte arrays and
  booleans have one each.
* `Operation.comparison_coherent`: equality is an equivalence relation, the order is total on each kind, and the six
  operators agree with both.
-/

namespace Crunch

namespace Value

mutual

/-- Whether no numeric and no imaginary stands in a value, at any depth. -/
def isDiscrete : Value → Bool
  | .numeric _ | .imaginary _ => false
  | .tuple fields _ => areDiscrete fields
  | .collection _ items => areDiscrete items
  | _ => true

def areDiscrete : List Value → Bool
  | [] => true
  | v :: vs => v.isDiscrete && areDiscrete vs

end

mutual

/-- The contents of a value: its nulls, tuples and collections declare no types, and objects go by their
numbers alone. -/
def bare : Value → Value
  | .null _ => .null Ty.untyped
  | .tuple fields _ => .tuple (bareAll fields) []
  | .collection _ items => .collection Ty.untyped (bareAll items)
  | .object _ id => .object "" id
  | v => v

def bareAll : List Value → List Value
  | [] => []
  | v :: vs => v.bare :: bareAll vs

end

/-- Integers, literals, byte arrays and booleans. -/
def isOrdinal : Value → Bool
  | .integer _ | .literal _ | .tabchar _ | .boolean _ => true
  | _ => false

end Value

namespace Operation

/-! ## Equality -/

mutual

/-- Discrete values are equal if their contents are one and the same. -/
theorem equal_iff (l r : Value) (hl : l.isDiscrete = true) (hr : r.isDiscrete = true) :
    equal l r = true ↔ l.bare = r.bare := by
  cases l with
  | numeric x | imaginary z => cases hl
  | tuple fs ts =>
    cases r with
    | tuple fs' ts' =>
      rw [equal, Value.bare, Value.bare, equalAll_iff fs fs' hl hr, Value.tuple.injEq]
      exact (and_iff_left rfl).symm
    | _ => simp [equal, equalScalars, reals, complex?, Value.same, Value.bare]
  | collection e vs =>
    cases r with
    | collection e' vs' =>
      rw [equal, Value.bare, Value.bare, equalAll_iff vs vs' hl hr, Value.collection.injEq]
      exact (and_iff_right rfl).symm
    | _ => simp [equal, equalScalars, reals, complex?, Value.same, Value.bare]
  | _ =>
    cases r with
    | numeric x | imaginary z => cases hr
    | _ => simp [equal, equalScalars, reals, complex?, Value.same, Value.bare, Int64.toInt_inj]

theorem equalAll_iff (ls rs : List Value) (hl : Value.areDiscrete ls = true) (hr : Value.areDiscrete rs = true) :
    equalAll ls rs = true ↔ Value.bareAll ls = Value.bareAll rs := by
  cases ls with
  | nil => cases rs <;> simp [equalAll, Value.bareAll]
  | cons l ls =>
    cases rs with
    | nil => simp [equalAll, Value.bareAll]
    | cons r rs =>
      rw [Value.areDiscrete, Bool.and_eq_true] at hl hr
      rw [equalAll, Bool.and_eq_true, equal_iff l r hl.1 hr.1, equalAll_iff ls rs hl.2 hr.2, Value.bareAll,
        Value.bareAll, List.cons.injEq]

end

/-- Nulls and collections of two types are equal. -/
example : equal (.collection Ty.integer [.null Ty.integer]) (.collection Ty.literal [.null Ty.literal]) = true := rfl

mutual

/-- Values of one structure have the same contents. -/
theorem bare_of_same (l r : Value) (hl : l.isDiscrete = true) (h : l.same r = true) : l.bare = r.bare := by
  cases l with
  | numeric x | imaginary z => cases hl
  | tuple fs ts =>
    cases r with
    | tuple fs' ts' =>
      rw [Value.same, Bool.and_eq_true] at h
      rw [Value.bare, Value.bare, bareAll_of_same fs fs' hl h.1]
    | _ => simp [Value.same] at h
  | collection e vs =>
    cases r with
    | collection e' vs' =>
      rw [Value.same, Bool.and_eq_true] at h
      rw [Value.bare, Value.bare, bareAll_of_same vs vs' hl h.2]
    | _ => simp [Value.same] at h
  | _ => cases r <;> simp [Value.same, Value.bare] at h ⊢ <;> exact h

theorem bareAll_of_same (ls rs : List Value) (hl : Value.areDiscrete ls = true) (h : Value.sameAll ls rs = true) :
    Value.bareAll ls = Value.bareAll rs := by
  cases ls with
  | nil =>
    cases rs with
    | nil => rfl
    | cons r rs => cases h
  | cons l ls =>
    cases rs with
    | nil => cases h
    | cons r rs =>
      rw [Value.areDiscrete, Bool.and_eq_true] at hl
      rw [Value.sameAll, Bool.and_eq_true] at h
      rw [Value.bareAll, Value.bareAll, bare_of_same l r hl.1 h.1, bareAll_of_same ls rs hl.2 h.2]

end

/-! ## Order -/

theorem isDiscrete_of_isOrdinal {v : Value} (h : v.isOrdinal = true) : v.isDiscrete = true := by
  cases v with
  | integer _ | literal _ | tabchar _ | boolean _ => rfl
  | _ => cases h

/-- Ordinal values are equal only to themselves. -/
theorem equal_ordinal {l r : Value} (hl : l.isOrdinal = true) (hr : r.isOrdinal = true) : equal l r = true ↔ l = r := by
  have hbare {v : Value} (h : v.isOrdinal = true) : v.bare = v := by
    cases v with
    | integer _ | literal _ | tabchar _ | boolean _ => rfl
    | _ => cases h
  rw [equal_iff l r (isDiscrete_of_isOrdinal hl) (isDiscrete_of_isOrdinal hr), hbare hl, hbare hr]

/-- A kind of values that are ordered by their contents. -/
structure Scale where
  Content : Type
  value : Content → Value
  /-- The order of the contents. -/
  compare : Content → Content → Ordering
  transitive : Std.TransCmp compare
  lawful : Std.LawfulEqCmp compare
  injective (a b : Content) : value a = value b → a = b
  isOrdinal_value (a : Content) : (value a).isOrdinal = true
  type_value (a b : Content) : (value a).type = (value b).type
  /-- The type tells the kind. -/
  onto (a : Content) (v : Value) : v.isOrdinal = true → v.type = (value a).type → ∃ b, v = value b
  order_value (a b : Content) : order (value a) (value b) = .ok (compare a b)

attribute [instance] Scale.transitive Scale.lawful

namespace Scale

/-- Contents that are told apart by what they are compared by. -/
theorem lawful_compareOn {α β : Type} [Ord β] [Std.LawfulEqOrd β] {f : α → β} (hf : ∀ a b, f a = f b → a = b) :
    Std.LawfulEqCmp (compareOn f) where
  compare_self := Std.compare_self
  eq_of_compare h := hf _ _ (Std.LawfulEqOrd.eq_of_compare h)

def integers : Scale where
  Content := Int64
  value := .integer
  compare := compareOn Int64.toInt
  transitive := inferInstance
  lawful := lawful_compareOn fun _ _ => Int64.toInt_inj.mp
  injective _ _ h := Value.integer.inj h
  isOrdinal_value _ := rfl
  type_value _ _ := rfl
  onto a v hv ht := by
    cases v with
    | integer n => exact ⟨n, rfl⟩
    | literal _ | tabchar _ | boolean _ => cases ht
    | _ => cases hv
  order_value _ _ := rfl

def literals : Scale where
  Content := List Char
  value cs := .literal (String.ofList cs)
  compare := List.compareLex Ord.compare
  transitive := inferInstance
  lawful := inferInstance
  injective _ _ h := String.ofList_injective (Value.literal.inj h)
  isOrdinal_value _ := rfl
  type_value _ _ := rfl
  onto a v hv ht := by
    cases v with
    | literal s => exact ⟨s.toList, by rw [String.ofList_toList]⟩
    | integer _ | tabchar _ | boolean _ => cases ht
    | _ => cases hv
  order_value _ _ := by simp [order, reals]

def tabchars : Scale where
  Content := List UInt8
  value := .tabchar
  compare := List.compareLex Ord.compare
  transitive := inferInstance
  lawful := inferInstance
  injective _ _ h := Value.tabchar.inj h
  isOrdinal_value _ := rfl
  type_value _ _ := rfl
  onto a v hv ht := by
    cases v with
    | tabchar bytes => exact ⟨bytes, rfl⟩
    | integer _ | literal _ | boolean _ => cases ht
    | _ => cases hv
  order_value _ _ := rfl

def booleans : Scale where
  Content := Bool
  value := .boolean
  compare := compareOn Bool.toNat
  transitive := inferInstance
  lawful := lawful_compareOn (by decide)
  injective _ _ h := Value.boolean.inj h
  isOrdinal_value _ := rfl
  type_value _ _ := rfl
  onto a v hv ht := by
    cases v with
    | boolean b => exact ⟨b, rfl⟩
    | integer _ | literal _ | tabchar _ => cases ht
    | _ => cases hv
  order_value _ _ := rfl

end Scale

/-- Every integer, literal, byte array and boolean is on a scale. -/
theorem exists_scale {v : Value} (h : v.isOrdinal = true) : ∃ (k : Scale) (a : k.Content), v = k.value a := by
  cases v with
  | integer n => exact ⟨.integers, n, rfl⟩
  | literal s => exact ⟨.literals, s.toList, congrArg Value.literal String.ofList_toList.symm⟩
  | tabchar bytes => exact ⟨.tabchars, bytes, rfl⟩
  | boolean b => exact ⟨.booleans, b, rfl⟩
  | _ => cases h

/-- Two of them of one type are on the same scale. -/
theorem exists_scale_pair {l r : Value} (hl : l.isOrdinal = true) (hr : r.isOrdinal = true) (ht : l.type = r.type) :
    ∃ (k : Scale) (a b : k.Content), l = k.value a ∧ r = k.value b := by
  obtain ⟨k, a, rfl⟩ := exists_scale hl
  obtain ⟨b, rfl⟩ := k.onto a r hr ht.symm
  exact ⟨k, a, b, rfl, rfl⟩

/-- Values of two kinds have no order. -/
theorem order_error {l r : Value} (hl : l.isOrdinal = true) (hr : r.isOrdinal = true) (ht : l.type ≠ r.type) :
    order l r = .error (.undefined (.unordered l.type r.type)) := by
  cases l with
  | integer _ | literal _ | tabchar _ | boolean _ =>
    cases r with
    | integer _ | literal _ | tabchar _ | boolean _ => first | rfl | exact absurd rfl ht
    | _ => cases hr
  | _ => cases hl

/-- Values with an order are on one scale. -/
theorem scale_of_order {l r : Value} {o : Ordering} (hl : l.isOrdinal = true) (hr : r.isOrdinal = true)
    (h : order l r = .ok o) : ∃ (k : Scale) (a b : k.Content), l = k.value a ∧ r = k.value b ∧ k.compare a b = o := by
  by_cases ht : l.type = r.type
  · obtain ⟨k, a, b, rfl, rfl⟩ := exists_scale_pair hl hr ht
    rw [k.order_value] at h
    cases h
    exact ⟨k, a, b, rfl, rfl, rfl⟩
  · rw [order_error hl hr ht] at h
    cases h

/-- One value comes before another one, or they are equal. -/
def Le (l r : Value) : Prop := ∃ o, order l r = .ok o ∧ o.isLE = true

section Le

variable {l r u : Value}

theorem Le.antisymm (hl : l.isOrdinal = true) (hr : r.isOrdinal = true) (h : Le l r) (h' : Le r l) : l = r := by
  obtain ⟨o, ho, hle⟩ := h
  obtain ⟨k, a, b, rfl, rfl, rfl⟩ := scale_of_order hl hr ho
  obtain ⟨o', ho', hle'⟩ := h'
  rw [k.order_value] at ho'
  cases ho'
  have heq : k.compare a b = .eq := Std.OrientedCmp.isLE_antisymm hle hle'
  rw [Std.LawfulEqCmp.eq_of_compare heq]

theorem Le.trans (hl : l.isOrdinal = true) (hr : r.isOrdinal = true) (hu : u.isOrdinal = true) (h : Le l r)
    (h' : Le r u) : Le l u := by
  obtain ⟨o, ho, hle⟩ := h
  obtain ⟨k, a, b, rfl, rfl, rfl⟩ := scale_of_order hl hr ho
  obtain ⟨o', ho', hle'⟩ := h'
  have ht : u.type = (k.value b).type := by
    obtain ⟨k', b', c', hb, rfl, -⟩ := scale_of_order hr hu ho'
    rw [hb, k'.type_value]
  obtain ⟨c, rfl⟩ := k.onto b u hu ht
  rw [k.order_value] at ho'
  cases ho'
  exact ⟨k.compare a c, k.order_value a c, Std.TransCmp.isLE_trans hle hle'⟩

theorem Le.total (hl : l.isOrdinal = true) (hr : r.isOrdinal = true) (ht : l.type = r.type) : Le l r ∨ Le r l := by
  obtain ⟨k, a, b, rfl, rfl⟩ := exists_scale_pair hl hr ht
  have hswap : k.compare b a = (k.compare a b).swap := Std.OrientedCmp.eq_swap
  cases hab : k.compare a b with
  | lt | eq => exact .inl ⟨_, k.order_value a b, by rw [hab]; rfl⟩
  | gt => exact .inr ⟨_, k.order_value b a, by rw [hswap, hab]; rfl⟩

end Le

/-! ## The operators -/

/-- How equality, order and the operators of comparison fit together. -/
structure Coherent : Prop where
  equivalence : Equivalence fun l r : {v : Value // v.isDiscrete = true} => equal l.val r.val = true
  of_same (l r : Value) : l.isDiscrete = true → r.isDiscrete = true → l.same r = true → equal l r = true
  /-- The types that nulls, tuples and collections declare are not looked at, but all else is. -/
  contents (l r : Value) : l.isDiscrete = true → r.isDiscrete = true → (equal l r = true ↔ l.bare = r.bare)
  ordered (l r : Value) : l.isOrdinal = true → r.isOrdinal = true → ((∃ o, order l r = .ok o) ↔ l.type = r.type)
  antisymm (l r : Value) : l.isOrdinal = true → r.isOrdinal = true → Le l r → Le r l → l = r
  trans (l r u : Value) : l.isOrdinal = true → r.isOrdinal = true → u.isOrdinal = true → Le l r → Le r u → Le l u
  total (l r : Value) : l.isOrdinal = true → r.isOrdinal = true → l.type = r.type → Le l r ∨ Le r l
  eq_iff (l r : Value) : l.isOrdinal = true → r.isOrdinal = true → (order l r = .ok .eq ↔ equal l r = true)
  /-- Exactly one of three operators holds, and it tells the results of the others. -/
  operators (l r : Value) : l.isOrdinal = true → r.isOrdinal = true → l.type = r.type →
    ∃ lt eq gt : Bool, [lt, eq, gt].count true = 1 ∧
      comparison .less l r = .ok (.boolean lt) ∧ comparison .equal l r = .ok (.boolean eq) ∧
      comparison .greater l r = .ok (.boolean gt) ∧ comparison .lessEqual l r = .ok (.boolean (lt || eq)) ∧
      comparison .greaterEqual l r = .ok (.boolean (gt || eq)) ∧ comparison .notEqual l r = .ok (.boolean !eq)
  one_null (op : BinaryOp) (l r : Value) : l.isNull ≠ r.isNull → comparison op l r = .ok (.boolean false)

theorem equivalence_equal : Equivalence fun l r : {v : Value // v.isDiscrete = true} => equal l.val r.val = true where
  refl v := (equal_iff v v v.property v.property).mpr rfl
  symm {l r} h := (equal_iff r l r.property l.property).mpr ((equal_iff l r l.property r.property).mp h).symm
  trans {l r u} h h' := by
    have hlr := (equal_iff l r l.property r.property).mp h
    have hru := (equal_iff r u r.property u.property).mp h'
    exact (equal_iff l u l.property u.property).mpr (hlr.trans hru)

theorem eq_iff_equal {l r : Value} (hl : l.isOrdinal = true) (hr : r.isOrdinal = true) :
    order l r = .ok .eq ↔ equal l r = true := by
  rw [equal_ordinal hl hr]
  constructor
  · intro h
    obtain ⟨k, a, b, rfl, rfl, hab⟩ := scale_of_order hl hr h
    rw [Std.LawfulEqCmp.eq_of_compare hab]
  · rintro rfl
    obtain ⟨k, a, rfl⟩ := exists_scale hl
    have hself : k.compare a a = .eq := Std.ReflCmp.compare_self
    rw [k.order_value, hself]

/-- The operators on two values of one scale. -/
theorem comparison_scale (k : Scale) (a b : k.Content) (op : BinaryOp) :
    comparison op (k.value a) (k.value b) = match op with
      | .equal => .ok (.boolean (k.compare a b == .eq))
      | .notEqual => .ok (.boolean !(k.compare a b == .eq))
      | .less => .ok (.boolean (k.compare a b == .lt))
      | .lessEqual => .ok (.boolean (k.compare a b != .gt))
      | .greater => .ok (.boolean (k.compare a b == .gt))
      | .greaterEqual => .ok (.boolean (k.compare a b != .lt))
      | _ => .error (.undefined (.notAComparison op)) := by
  have hnull (a : k.Content) : (k.value a).isNull = false := by
    have h := k.isOrdinal_value a
    cases hv : k.value a with
    | null t =>
      rw [hv] at h
      cases h
    | _ => rfl
  have hequal : equal (k.value a) (k.value b) = (k.compare a b == .eq) := by
    rw [Bool.eq_iff_iff, beq_iff_eq, ← eq_iff_equal (k.isOrdinal_value a) (k.isOrdinal_value b), k.order_value,
      Except.ok.injEq]
  simp only [comparison, hnull, Bool.and_self, Bool.or_self, Bool.false_eq_true, if_false, k.order_value, hequal]
  rfl

/-- Equality and order agree, and the operators of comparison agree with both. -/
theorem comparison_coherent : Coherent where
  equivalence := equivalence_equal
  of_same l r hl hr h := (equal_iff l r hl hr).mpr (bare_of_same l r hl h)
  contents := equal_iff
  ordered l r hl hr := by
    constructor
    · rintro ⟨o, ho⟩
      obtain ⟨k, a, b, rfl, rfl, -⟩ := scale_of_order hl hr ho
      exact k.type_value a b
    · intro ht
      obtain ⟨k, a, b, rfl, rfl⟩ := exists_scale_pair hl hr ht
      exact ⟨_, k.order_value a b⟩
  antisymm l r := Le.antisymm
  trans l r u := Le.trans
  total l r := Le.total
  eq_iff l r := eq_iff_equal
  operators l r hl hr ht := by
    obtain ⟨k, a, b, rfl, rfl⟩ := exists_scale_pair hl hr ht
    simp only [comparison_scale]
    refine ⟨k.compare a b == .lt, k.compare a b == .eq, k.compare a b == .gt, ?_⟩
    cases k.compare a b <;> exact ⟨rfl, rfl, rfl, rfl, rfl, rfl, rfl⟩
  one_null op l r hne := by
    cases hl : l.isNull <;> cases hr : r.isNull <;> simp_all [comparison]

end Operation
end Crunch
