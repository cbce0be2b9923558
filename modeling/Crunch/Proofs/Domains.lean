import Crunch.Operation
import Crunch.Proofs.Outcome

/-!
# Crunch.Proofs.Domains

Operators inside and outside their domains, on values of all kinds, nulls of any type included.

* `BinaryOp.Fails`: the errors of an operator inside its domain.
* `BinaryOp.landing`: the type that a result really has. It is the one that the table of domains
  gives, except for a negative power of an integer.
* `BinaryOp.yields`, `UnaryOp.yields`: an operator inside its domain, on operands that are no nulls.
* `operators_respect_domains`: the table of domains and result types is what operators do.
-/

namespace Crunch

/-- The errors of an operator on operands in its domain. -/
def BinaryOp.Fails : BinaryOp → Fault.Cause → Prop
  | .div, c | .mod, c | .power, c => c = .divideByZero
  | .match, c => ∃ message, c = .badPattern message
  | _, _ => False

/-- The type of a result, given the one that the operator has for the types of its operands. -/
def BinaryOp.landing (op : BinaryOp) (l r : Value) (t : Ty) : Ty :=
  match op, l, r with
  | .power, .integer _, .integer n => if n.toInt < 0 then Ty.numeric else t
  | _, _, _ => t

theorem BinaryOp.landing_of_isNull (op : BinaryOp) {l r : Value} (h : l.isNull || r.isNull) (t : Ty) :
    op.landing l r t = t := by
  unfold BinaryOp.landing
  split
  · cases h
  · rfl

theorem BinaryOp.landing_of_ne {op : BinaryOp} (h : op ≠ .power) (l r : Value) (t : Ty) : op.landing l r t = t := by
  unfold BinaryOp.landing
  split
  · exact absurd rfl h
  · rfl

theorem BinaryOp.landing_of_class {p : BinaryOp → Bool} {op : BinaryOp} {l r : Value} {w : Ty}
    (hp : p .power = false) (hop : p op = true) : op.landing l r w = w := by
  apply BinaryOp.landing_of_ne
  rintro rfl
  rw [hp] at hop
  cases hop

/-- Whether a null operand makes the result a null. -/
def BinaryOp.isStrict (op : BinaryOp) : Bool := !op.isComparison && !op.isLogical

theorem Value.number_of_promote? {l r : Value} {w : Ty} (hl : l.isNull = false) (hr : r.isNull = false)
    (h : Ty.promote? l.type r.type = some w) :
    ((∃ n, l = .integer n) ∨ (∃ x, l = .numeric x) ∨ ∃ z, l = .imaginary z) ∧
      ((∃ n, r = .integer n) ∨ (∃ x, r = .numeric x) ∨ ∃ z, r = .imaginary z) := by
  simp only [Ty.promote?, Value.isUntyped_type hl, Value.isUntyped_type hr, Option.ite_none_right_eq_some,
    Bool.and_eq_true] at h
  exact ⟨(Value.IsA.of_isNull hl).number h.1.1, (Value.IsA.of_isNull hr).number h.1.2⟩

theorem Value.isScalar_of_isOrUntyped {v : Value} {k : Kind} (hv : v.isNull = false)
    (h : v.type.isOrUntyped k = true) : v.type.isScalar k = true := by
  simpa [Ty.isOrUntyped, Value.isUntyped_type hv] using h

namespace Operation

variable {l r : Value} {w : Ty}

/-! ## Arithmetic -/

/-- The operators of arithmetic but the power. -/
def isArithmetic (op : BinaryOp) : Bool := [.add, .sub, .mul, .div, .mod].contains op

theorem yields_integers {op : BinaryOp} (h : isArithmetic op = true) (a b : Int64) :
    Yields (integers op a b) (fun _ => True) op.Fails := by
  cases op <;> simp [isArithmetic] at h <;> simp only [integers] <;>
    first | trivial | exact yields_ite (fun _ => rfl) fun _ => trivial

theorem yields_numerics {op : BinaryOp} (h : isArithmetic op = true) (a b : Float) :
    Yields (numerics op a b) (fun _ => True) op.Fails := by
  cases op <;> simp [isArithmetic] at h <;> simp only [numerics] <;>
    first | trivial | exact yields_ite (fun _ => rfl) fun _ => trivial

theorem yields_imaginaries {op : BinaryOp} (h : isArithmetic op = true) (hm : op ≠ .mod) (a b : Imaginary) :
    Yields (imaginaries op a b) (fun _ => True) op.Fails := by
  cases op <;> simp [isArithmetic] at h hm <;> simp only [imaginaries] <;>
    first | trivial | exact yields_ite (fun _ => rfl) fun _ => trivial

theorem yields_arithmetic {op : BinaryOp} (h : isArithmetic op = true) (hl : l.isNull = false)
    (hr : r.isNull = false) (hp : Ty.promote? l.type r.type = some w) (hm : op = .mod → w.kind ≠ .imaginary) :
    Yields (arithmetic op w l r) (·.IsA w) op.Fails := by
  rcases Value.number_of_promote? hl hr hp with
    ⟨⟨a, rfl⟩ | ⟨a, rfl⟩ | ⟨a, rfl⟩, ⟨b, rfl⟩ | ⟨b, rfl⟩ | ⟨b, rfl⟩⟩ <;> cases hp
  · exact (yields_integers h a b).bind fun n _ => ⟨rfl, rfl⟩
  all_goals first
    | exact (yields_numerics h _ _).bind fun x _ => ⟨rfl, rfl⟩
    | exact (yields_imaginaries h (fun hop => hm hop rfl) _ _).bind fun z _ => ⟨rfl, rfl⟩

theorem yields_imaginaryPower (b e : Imaginary) :
    Yields (imaginaryPower b e) (fun _ => True) BinaryOp.power.Fails := by
  unfold imaginaryPower
  refine yields_ite (fun _ => trivial) fun _ => yields_ite (fun _ => trivial) fun _ => ?_
  exact yields_ite (fun _ => trivial) fun _ => rfl

/-- Powers of numbers. The sign of an exponent tells the kind of the power of an integer. -/
theorem yields_power (hl : l.isNull = false) (hr : r.isNull = false) (hp : Ty.promote? l.type r.type = some w) :
    Yields (power l r) (·.IsA (BinaryOp.power.landing l r w)) BinaryOp.power.Fails := by
  unfold power
  rw [hp]
  simp only [hl, hr, Bool.or_self, Bool.false_eq_true, if_false]
  rcases Value.number_of_promote? hl hr hp with
    ⟨⟨a, rfl⟩ | ⟨a, rfl⟩ | ⟨a, rfl⟩, ⟨b, rfl⟩ | ⟨b, rfl⟩ | ⟨b, rfl⟩⟩ <;> cases hp
  · refine yields_ite (fun hb => ⟨rfl, ?_⟩) fun hb => yields_ite (fun _ => rfl) fun _ => ⟨rfl, ?_⟩
    · simp only [BinaryOp.landing, if_neg (Int.not_lt.mpr hb)]
      rfl
    · simp only [BinaryOp.landing, if_pos (Int.not_le.mp hb)]
      rfl
  all_goals first
    | exact yields_ite (fun _ => rfl) fun _ => ⟨rfl, rfl⟩
    | exact (yields_imaginaryPower _ _).bind fun z _ => ⟨rfl, rfl⟩

/-! ## Texts -/

/-- Texts and byte arrays are joined; a sum whose type is neither is one of numbers. -/
theorem yields_concat (hl : l.isNull = false) (hr : r.isNull = false)
    (h : BinaryOp.add.result? l.type r.type = some w) (hw : w = Ty.literal ∨ w = Ty.tabchar) :
    Yields (concat l r) (·.IsA w) fun _ => False := by
  unfold concat
  rw [h]
  simp only [hl, hr, Bool.or_self, Bool.false_eq_true, if_false]
  simp only [BinaryOp.result?, Ty.isOrUntyped, Value.isUntyped_type hr, Bool.false_or] at h
  split at h
  · rename_i hc
    cases h
    simp only [Bool.and_eq_true, Bool.or_eq_true] at hc
    obtain ⟨a, rfl⟩ := (Value.IsA.of_isNull hl).form hc.1
    rcases hc.2 with hb | hb
    all_goals
      obtain ⟨b, rfl⟩ := (Value.IsA.of_isNull hr).form hb
      exact ⟨rfl, rfl⟩
  · rename_i hc
    split at h
    · cases h
      split
      · exact absurd rfl hc
      · exact absurd rfl hc
      · exact ⟨rfl, rfl⟩
    · rcases Value.number_of_promote? hl hr h with
        ⟨⟨a, rfl⟩ | ⟨a, rfl⟩ | ⟨a, rfl⟩, ⟨b, rfl⟩ | ⟨b, rfl⟩ | ⟨b, rfl⟩⟩ <;> cases h <;>
        rcases hw with hw | hw <;> cases hw

/-! ## Comparison -/

theorem yields_order (hl : l.isNull = false) (hr : r.isNull = false)
    (h : Ty.orderable l.type r.type = true) : Yields (order l r) (fun _ => True) fun _ => False := by
  have hscalar : ∀ {v : Value}, v.isNull = false → v.type.isOrdered = true →
      (∃ n, v = .integer n) ∨ (∃ x, v = .numeric x) ∨ (∃ s, v = .literal s) ∨ (∃ bytes, v = .tabchar bytes) ∨
        ∃ b, v = .boolean b := by
    intro v hv ht
    have hv' := Value.IsA.of_isNull hv
    simp only [Ty.isOrdered, hv'.isUntyped, Bool.false_or, Bool.or_eq_true] at ht
    rcases ht with (((ht | ht) | ht) | ht) | ht
    · exact .inl (hv'.form ht)
    · exact .inr (.inl (hv'.form ht))
    · exact .inr (.inr (.inl (hv'.form ht)))
    · exact .inr (.inr (.inr (.inl (hv'.form ht))))
    · exact .inr (.inr (.inr (.inr (hv'.form ht))))
  simp only [Ty.orderable, Bool.and_eq_true] at h
  obtain ⟨⟨ht, hu⟩, hk⟩ := h
  rcases hscalar hl ht with ⟨a, rfl⟩ | ⟨a, rfl⟩ | ⟨a, rfl⟩ | ⟨a, rfl⟩ | ⟨a, rfl⟩ <;>
    rcases hscalar hr hu with ⟨b, rfl⟩ | ⟨b, rfl⟩ | ⟨b, rfl⟩ | ⟨b, rfl⟩ | ⟨b, rfl⟩ <;>
    trivial

theorem comparison_of_isNull (op : BinaryOp) (hn : l.isNull || r.isNull) :
    ∃ v, comparison op l r = .ok v ∧ v.type = Ty.boolean := by
  cases hb : l.isNull && r.isNull with
  | true =>
    refine ⟨nulls op l r, by simp [comparison, hb], ?_⟩
    unfold nulls
    split <;> rfl
  | false => exact ⟨.boolean false, by simp [comparison, hb, hn], rfl⟩

theorem result?_comparison {op : BinaryOp} {t u : Ty} (hop : op.isComparison = true)
    (h : op.result? t u = some w) : w = Ty.boolean := by
  cases op <;> simp only [BinaryOp.isComparison, Bool.false_eq_true] at hop <;>
    simp only [BinaryOp.result?, Option.ite_none_right_eq_some, Option.some.injEq] at h <;> exact h.2.symm

theorem yields_comparison {op : BinaryOp} (hop : op.isComparison = true) (hl : l.isNull = false)
    (hr : r.isNull = false) (h : op.result? l.type r.type = some w) :
    Yields (comparison op l r) (·.IsA w) fun _ => False := by
  have hb : ∀ b : Bool, (Value.boolean b).IsA Ty.boolean := fun b => ⟨rfl, rfl⟩
  simp only [comparison, hl, hr, Bool.and_self, Bool.or_self, Bool.false_eq_true, if_false]
  cases op <;> simp only [BinaryOp.isComparison, Bool.false_eq_true] at hop <;>
    simp only [BinaryOp.result?, Option.ite_none_right_eq_some, Option.some.injEq] at h <;>
    obtain ⟨hd, rfl⟩ := h
  case equal | notEqual => exact hb _
  all_goals exact (yields_order hl hr hd).map fun o _ => hb _

/-! ## Logic, bits and patterns -/

theorem truth_of_isOrUntyped {v : Value} (op : BinaryOp) (h : v.type.isOrUntyped .boolean = true) :
    ∃ b, truth op v = .ok b := by
  cases hn : v.isNull with
  | true =>
    obtain ⟨t, rfl⟩ := Value.isNull_iff.mp hn
    exact ⟨none, if_pos h⟩
  | false =>
    obtain ⟨b, rfl⟩ := (Value.IsA.of_isNull hn).form (Value.isScalar_of_isOrUntyped hn h)
    exact ⟨some b, rfl⟩

theorem result?_logical {op : BinaryOp} {t u : Ty} (hop : op.isLogical = true) (h : op.result? t u = some w) :
    t.isOrUntyped .boolean = true ∧ u.isOrUntyped .boolean = true ∧ w = Ty.boolean := by
  cases op <;> simp only [BinaryOp.isLogical, Bool.false_eq_true] at hop <;>
    simp only [BinaryOp.result?, Option.ite_none_right_eq_some, Option.some.injEq, Bool.and_eq_true] at h <;>
    exact ⟨h.1.1, h.1.2, h.2.symm⟩

theorem logical_of_domain {op : BinaryOp} (hop : op.isLogical = true)
    (h : op.result? l.type r.type = some w) : ∃ v, logical op l r = .ok v ∧ v.type = w := by
  obtain ⟨ht, hu, rfl⟩ := result?_logical hop h
  obtain ⟨a, ha⟩ := truth_of_isOrUntyped op ht
  obtain ⟨b, hb⟩ := truth_of_isOrUntyped op hu
  refine ⟨ofTruth (connective op a b), by rw [logical, ha, hb]; rfl, ?_⟩
  cases connective op a b <;> rfl

theorem yields_logical {op : BinaryOp} (hop : op.isLogical = true) (hl : l.isNull = false)
    (hr : r.isNull = false) (h : op.result? l.type r.type = some w) :
    Yields (logical op l r) (·.IsA w) fun _ => False := by
  obtain ⟨ht, hu, rfl⟩ := result?_logical hop h
  obtain ⟨a, rfl⟩ := (Value.IsA.of_isNull hl).form (Value.isScalar_of_isOrUntyped hl ht)
  obtain ⟨b, rfl⟩ := (Value.IsA.of_isNull hr).form (Value.isScalar_of_isOrUntyped hr hu)
  cases op <;> cases a <;> cases b <;> exact ⟨rfl, rfl⟩

/-- The operators on bits. -/
def isBits (op : BinaryOp) : Bool := [.bitAnd, .bitOr, .bitXor, .shiftLeft, .shiftRight].contains op

/-- The operands are both integers or, but for shifts, both booleans. -/
theorem result?_bits {op : BinaryOp} (hop : isBits op = true) (hl : l.isNull = false) (hr : r.isNull = false)
    (h : op.result? l.type r.type = some w) :
    (l.type.isScalar .integer = true ∧ r.type.isScalar .integer = true ∧ w = Ty.integer) ∨
      (l.type.isScalar .boolean = true ∧ r.type.isScalar .boolean = true ∧ w = Ty.boolean ∧
        op ≠ .shiftLeft ∧ op ≠ .shiftRight) := by
  have hl' := Value.isUntyped_type hl
  have hr' := Value.isUntyped_type hr
  cases op <;> simp [isBits] at hop <;>
    simp only [BinaryOp.result?, Ty.isOrUntyped, hl', hr', Bool.false_or, Bool.and_self, Bool.false_eq_true,
      if_false] at h <;> split at h
  all_goals rename_i hd
  case shiftLeft.isTrue | shiftRight.isTrue | bitAnd.isTrue | bitOr.isTrue | bitXor.isTrue =>
    simp only [Bool.and_eq_true] at hd
    cases h
    exact .inl ⟨hd.1, hd.2, rfl⟩
  case shiftLeft.isFalse | shiftRight.isFalse => cases h
  all_goals
    simp only [Option.ite_none_right_eq_some, Option.some.injEq, Bool.and_eq_true] at h
    exact .inr ⟨h.1.1, h.1.2, h.2.symm, nofun, nofun⟩

theorem yields_bits {op : BinaryOp} (hop : isBits op = true) (hl : l.isNull = false) (hr : r.isNull = false)
    (h : op.result? l.type r.type = some w) : Yields (bits op l r) (·.IsA w) fun _ => False := by
  rcases result?_bits hop hl hr h with ⟨ht, hu, rfl⟩ | ⟨ht, hu, rfl, hsl, hsr⟩
  · obtain ⟨a, rfl⟩ := (Value.IsA.of_isNull hl).form ht
    obtain ⟨b, rfl⟩ := (Value.IsA.of_isNull hr).form hu
    cases op <;> simp [isBits] at hop <;> exact ⟨rfl, rfl⟩
  · obtain ⟨a, rfl⟩ := (Value.IsA.of_isNull hl).form ht
    obtain ⟨b, rfl⟩ := (Value.IsA.of_isNull hr).form hu
    cases op <;> simp [isBits] at hop hsl hsr <;> exact ⟨rfl, rfl⟩

theorem yields_matching (hl : l.isNull = false) (hr : r.isNull = false)
    (h : BinaryOp.match.result? l.type r.type = some w) (cache : Pattern.Cache) :
    Yields (matching l r cache).1 (·.IsA w) BinaryOp.match.Fails := by
  simp only [BinaryOp.result?, Option.ite_none_right_eq_some, Option.some.injEq, Bool.and_eq_true] at h
  obtain ⟨⟨ht, hu⟩, rfl⟩ := h
  obtain ⟨s, rfl⟩ := (Value.IsA.of_isNull hl).form (Value.isScalar_of_isOrUntyped hl ht)
  obtain ⟨p, rfl⟩ := (Value.IsA.of_isNull hr).form (Value.isScalar_of_isOrUntyped hr hu)
  simp only [matching, Value.literal?]
  split
  · exact ⟨rfl, rfl⟩
  · exact ⟨_, rfl⟩

/-! ## All other operators -/

theorem yields_combine {op : BinaryOp} (hop : isArithmetic op = true ∨ op = .power ∨ isBits op = true)
    (hl : l.isNull = false) (hr : r.isNull = false) (h : op.result? l.type r.type = some w) :
    Yields (combine op w l r) (·.IsA (op.landing l r w)) op.Fails := by
  rcases hop with hop | rfl | hop
  · rw [BinaryOp.landing_of_class rfl hop]
    cases op <;> simp only [isArithmetic] at hop
    case add =>
      simp only [combine]
      refine yields_ite (fun hw => yields_concat hl hr h hw) fun hw => yields_arithmetic hop hl hr ?_ nofun
      simp only [BinaryOp.result?] at h
      split at h
      · cases h
        exact absurd (.inr rfl) hw
      · split at h
        · cases h
          exact absurd (.inl rfl) hw
        · exact h
    case sub | mul | div => exact yields_arithmetic hop hl hr h nofun
    case mod =>
      simp only [BinaryOp.result?, Option.filter_eq_some_iff, decide_eq_true_eq] at h
      exact yields_arithmetic hop hl hr h.1 fun _ => h.2
    all_goals cases hop
  · exact yields_power hl hr h
  · rw [BinaryOp.landing_of_class rfl hop]
    have hb := (yields_bits hop hl hr h).mono (fun _ => id) fun c => (False.elim : False → op.Fails c)
    cases op <;> simp only [isBits] at hop <;> first | exact hb | cases hop

end Operation

/-- On operands in its domain that are no nulls, an operator gives a value of the result type or
fails with one of its errors. -/
theorem BinaryOp.yields {op : BinaryOp} {l r : Value} {w : Ty} (hl : l.isNull = false) (hr : r.isNull = false)
    (h : op.result? l.type r.type = some w) (cache : Pattern.Cache) :
    Yields (op.apply l r cache).1 (·.IsA (op.landing l r w)) op.Fails := by
  unfold BinaryOp.apply
  rw [h]
  simp only [hl, hr, Bool.or_self, Bool.false_eq_true, if_false]
  split
  · rename_i hc
    rw [BinaryOp.landing_of_class rfl hc]
    exact (Operation.yields_comparison hc hl hr h).mono (fun _ => id) fun _ => False.elim
  · rename_i hc
    split
    · rename_i hg
      rw [BinaryOp.landing_of_class rfl hg]
      exact (Operation.yields_logical hg hl hr h).mono (fun _ => id) fun _ => False.elim
    · rename_i hg
      split
      · rename_i hm
        subst hm
        rw [BinaryOp.landing_of_ne (show BinaryOp.match ≠ .power from nofun)]
        exact Operation.yields_matching hl hr h cache
      · rename_i hm
        refine Operation.yields_combine ?_ hl hr h
        cases op <;> simp [BinaryOp.isComparison, BinaryOp.isLogical] at hc hg hm <;>
          first | exact .inl rfl | exact .inr (.inl rfl) | exact .inr (.inr rfl)

/-- A comparison or a connective always gives a boolean, or the null of booleans. -/
theorem BinaryOp.apply_lenient {op : BinaryOp} {l r : Value} {w : Ty} (hop : op.isStrict = false)
    (hn : l.isNull || r.isNull) (h : op.result? l.type r.type = some w) (cache : Pattern.Cache) :
    ∃ v, (op.apply l r cache).1 = .ok v ∧ v.type = w := by
  unfold BinaryOp.apply
  rw [h]
  cases hc : op.isComparison with
  | true =>
    obtain ⟨v, hv, ht⟩ := Operation.comparison_of_isNull op hn
    exact ⟨v, by simp [hv], ht.trans (Operation.result?_comparison hc h).symm⟩
  | false =>
    have hg : op.isLogical = true := by simpa [BinaryOp.isStrict, hc] using hop
    obtain ⟨v, hv, ht⟩ := Operation.logical_of_domain hg h
    exact ⟨v, by simp [hg, hv], ht⟩

/-- On an operand in its domain, an operator on one operand gives a value of the result type. -/
theorem UnaryOp.apply_of_domain {op : UnaryOp} {v : Value} {w : Ty} (hv : v.isNull = false)
    (h : op.result? v.type = some w) : ∃ u, op.apply v = .ok u ∧ u.IsA w := by
  have hv' := Value.IsA.of_isNull hv
  unfold UnaryOp.apply
  rw [h]
  simp only [hv, Bool.false_eq_true, if_false]
  cases op with
  | negate =>
    simp only [UnaryOp.result?, hv'.isUntyped, Bool.false_or, Option.ite_none_right_eq_some,
      Option.some.injEq] at h
    obtain ⟨hn, rfl⟩ := h
    rcases hv'.number hn with ⟨n, rfl⟩ | ⟨x, rfl⟩ | ⟨z, rfl⟩ <;> exact ⟨_, rfl, rfl, rfl⟩
  | plus =>
    simp only [UnaryOp.result?, Option.ite_none_right_eq_some, Option.some.injEq] at h
    exact ⟨v, rfl, hv, h.2⟩
  | not =>
    simp only [UnaryOp.result?, Option.ite_none_right_eq_some, Option.some.injEq] at h
    obtain ⟨hb, rfl⟩ := h
    obtain ⟨b, rfl⟩ := hv'.form (Value.isScalar_of_isOrUntyped hv hb)
    exact ⟨_, rfl, rfl, rfl⟩
  | bitNot =>
    simp only [UnaryOp.result?, hv'.isUntyped, Bool.false_or, Option.ite_none_right_eq_some,
      Option.some.injEq, Bool.or_eq_true] at h
    obtain ⟨hb | hb, rfl⟩ := h
    all_goals
      obtain ⟨b, rfl⟩ := hv'.form hb
      exact ⟨_, rfl, rfl, rfl⟩

/-- Outside its domain an operator is undefined. Inside, it gives a value of the result type, or
fails with one of its own errors; one of the operands being a null, the result is the null of this
type, unless the operator is a comparison or a connective. Operators on one operand never fail
inside their domains. -/
theorem operators_respect_domains :
    (∀ (op : BinaryOp) (l r : Value) (cache : Pattern.Cache),
      match op.result? l.type r.type with
      | none => (op.apply l r cache).1 = .error (.undefined (.binary op l.type r.type))
      | some t =>
        if op.isStrict && (l.isNull || r.isNull) then (op.apply l r cache).1 = .ok (.null t)
        else Yields (op.apply l r cache).1 (·.type = op.landing l r t) op.Fails) ∧
    ∀ (op : UnaryOp) (v : Value),
      match op.result? v.type with
      | none => op.apply v = .error (.undefined (.unary op v.type))
      | some t => if v.isNull then op.apply v = .ok (.null t) else ∃ w, op.apply v = .ok w ∧ w.type = t := by
  constructor
  · intro op l r cache
    cases h : op.result? l.type r.type with
    | none => simp [BinaryOp.apply, h]
    | some t =>
      cases hn : l.isNull || r.isNull with
      | false =>
        simp only [Bool.or_eq_false_iff] at hn
        simp only [Bool.and_false, Bool.false_eq_true, if_false]
        exact (BinaryOp.yields hn.1 hn.2 h cache).mono (fun _ hw => hw.type) fun _ => id
      | true =>
        cases hs : op.isStrict with
        | true =>
          simp only [BinaryOp.isStrict, Bool.and_eq_true, Bool.not_eq_true'] at hs
          simp [BinaryOp.apply, h, hs.1, hs.2, hn]
        | false =>
          obtain ⟨v, hv, ht⟩ := BinaryOp.apply_lenient hs hn h cache
          simpa [hv, op.landing_of_isNull hn] using ht
  · intro op v
    cases h : op.result? v.type with
    | none => simp [UnaryOp.apply, h]
    | some t =>
      cases hv : v.isNull with
      | true => simp [UnaryOp.apply, h, hv]
      | false =>
        obtain ⟨w, hw, ht⟩ := UnaryOp.apply_of_domain hv h
        exact ⟨w, hw, ht.type⟩

end Crunch
