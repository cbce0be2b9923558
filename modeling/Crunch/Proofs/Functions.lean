import Crunch.Proofs.Check
import Crunch.Proofs.Operators
import Crunch.Proofs.Signatures

/-!
# Crunch.Proofs.Functions

Functions on solid values.

* `Builtin.isSettled`: functions whose result has the declared type for all arguments that the
  check lets through.
* `Builtin.lands_compute`: on arguments that the check lets through, a function gives a value of the
  result type, or fails for another reason than types.
-/

namespace Crunch

theorem Domain.holds {d : Domain} {v : Value} {t : Ty} (hv : v.HasType t) (h : d.admits t = true) : d.Holds v :=
  hv.isA.holds h

/-- An error of values is none of types. -/
theorem Fault.Cause.isTypeError_of_isValueError {c : Fault.Cause} (h : c.isValueError = true) :
    c.isTypeError = false := by
  cases c <;> first | rfl | cases h

theorem lands_of_delivers {α : Type} {r : Except Fault.Cause α} {P Q : α → Prop} (h : Delivers r P)
    (hpq : ∀ a, P a → Q a) : Lands r Q :=
  h.mono hpq fun _ => Fault.Cause.isTypeError_of_isValueError

theorem lands_gapPosition {n : Int64} {size : Nat} : Lands (gapPosition n size) fun _ => True :=
  lands_of_delivers delivers_gapPosition fun _ => id

theorem lands_elementPosition {n : Int64} {size : Nat} : Lands (elementPosition n size) fun p => p < size :=
  lands_of_delivers delivers_elementPosition fun _ => id

namespace Library

variable {v : Value}

theorem isScalar_of_solid (hv : v.Solid) (hc : v.type.isCollection = false) (ht : v.type.isScalar .tabchar = false)
    (hr : v.type.isScalar .tuple = false) : IsScalar v := by
  cases hv with
  | boolean b => exact .inl ⟨b, rfl⟩
  | integer n => exact .inr (.inl ⟨n, rfl⟩)
  | numeric x => exact .inr (.inr (.inl ⟨x, rfl⟩))
  | imaginary z => exact .inr (.inr (.inr (.inl ⟨z, rfl⟩)))
  | literal s => exact .inr (.inr (.inr (.inr ⟨s, rfl⟩)))
  | tabchar bytes => cases ht
  | tuple _ _ => cases hr
  | collection _ _ _ => simp [Value.type, Ty.isCollection] at hc

/-- Copies of one solid value. -/
theorem lands_table {n : Value} (hn : Domain.integer.Holds n) (hv : v.Solid) :
    Lands (table n v) (·.HasType v.type.arrayOf) := by
  refine lands_of_delivers (delivers_table hn v) ?_
  rintro w ⟨m, rfl⟩
  refine Value.hasType_collection hv.type fun w hw => ?_
  rw [List.eq_of_mem_replicate hw]
  exact hv.hasType

end Library

namespace Builtin

open Library

variable {b : Builtin} {vs : List Value}

/-- Calls whose result has the type that the check foresees. The others are powers, roots and
logarithms, which may leave their kind of numbers, and conversions of what does not convert. -/
def isSettled (b : Builtin) (types : List Ty) : Bool :=
  match b with
  | .pow | .sqrt | .log | .log10 => false
  | .bool | .num | .int => types.all fun t => !(t.isCollection || t.isScalar .tabchar || t.isScalar .tuple)
  | _ => true

/-- The arguments of `min` and `max` can be ordered. -/
theorem ordered_of_oneOrder (hb : b.domains = [.numberOrLiteral])
    (hdom : ∀ v ∈ vs, Domain.numberOrLiteral.Holds v) (h : Check.oneOrder b (vs.map Value.type) = true) :
    Ordered vs := by
  -- All entries that are compared are equal to the first one.
  have hsame : ∃ k, ∀ v ∈ vs, v.type.isScalar .literal = k := by
    refine ⟨_, fun v hv => beq_iff_eq.mp (List.all_eq_true.mp h _ ?_)⟩
    obtain ⟨i, hi⟩ := List.getElem?_of_mem hv
    have hmem : (v.type, i) ∈ (vs.map Value.type).zipIdx := by
      rw [List.mem_zipIdx_iff_getElem?, List.getElem?_map, hi, Option.map_some]
    refine List.mem_map.mpr ⟨(v.type, i), List.mem_filter.mpr ⟨hmem, ?_⟩, rfl⟩
    have hu : v.type.isUntyped = false := by
      rcases hdom v hv with ⟨n, rfl⟩ | ⟨x, rfl⟩ | ⟨s, rfl⟩ <;> rfl
    simp only [domain_single hb, hu, beq_self_eq_true, Bool.not_false, Bool.and_self]
  obtain ⟨k, hk⟩ := hsame
  cases k with
  | true =>
    refine .literals fun v hv => ?_
    rcases hdom v hv with ⟨n, rfl⟩ | ⟨x, rfl⟩ | ⟨s, rfl⟩
    · cases hk _ hv
    · cases hk _ hv
    · exact ⟨s, rfl⟩
  | false =>
    refine .reals fun v hv => ?_
    rcases hdom v hv with ⟨n, rfl⟩ | ⟨x, rfl⟩ | ⟨s, rfl⟩
    · exact .inl ⟨n, rfl⟩
    · exact .inr ⟨x, rfl⟩
    · cases hk _ hv

/-- Conversions that are settled are those of scalars. -/
theorem isScalar_of_settled {v : Value} (hb : b = .bool ∨ b = .num ∨ b = .int) (hv : v.Solid)
    (h : b.isSettled ([v].map Value.type) = true) : IsScalar v := by
  have h' : (!(v.type.isCollection || v.type.isScalar .tabchar || v.type.isScalar .tuple)) = true := by
    rcases hb with rfl | rfl | rfl <;> simpa [isSettled] using h
  simp only [Bool.not_eq_true', Bool.or_eq_false_iff] at h'
  exact isScalar_of_solid hv h'.1.1 h'.1.2 h'.2

/-- The results of functions of numbers and texts are scalars. -/
theorem result_scalar (hb : b ≠ .tup ∧ b ≠ .tab ∧ b ≠ .print) (ha : b.arity.admits vs.length = true)
    (hdom : ∀ i v, vs[i]? = some v → (b.domain i).Holds v)
    (ho : b.domains = [.numberOrLiteral] → Ordered vs) (hs : b.isSettled (vs.map Value.type) = true) :
    ∃ k, b.result (vs.map Value.type) = Ty.scalar k := by
  have every : ∀ {d : Domain}, b.domains = [d] → ∀ v ∈ vs, d.Holds v := by
    intro d hd v hv
    obtain ⟨i, hi⟩ := List.getElem?_of_mem hv
    have := hdom i v hi
    rwa [domain_single hd] at this
  have promote : vs ≠ [] → (∀ v ∈ vs, Domain.number.Holds v) →
      ∃ k, Ty.promoteAll (vs.map Value.type) = Ty.scalar k := by
    intro hne hall
    rcases promoteAll_numbers hne hall with h | h <;> exact ⟨_, h⟩
  cases b
  case tup | tab | print => simp at hb
  case pow | sqrt | log | log10 => cases hs
  case min | max =>
    have hne : vs ≠ [] := by
      rintro rfl
      cases ha
    simp only [result]
    split
    · exact ⟨_, rfl⟩
    · rename_i hany
      refine promote hne ?_
      cases ho rfl with
      | reals h => exact h
      | literals h =>
        refine absurd (List.any_eq_true.mpr ⟨Ty.literal, ?_, rfl⟩) hany
        obtain ⟨v, hv⟩ := List.exists_mem_of_ne_nil vs hne
        obtain ⟨s, rfl⟩ := h v hv
        exact List.mem_map_of_mem hv
  case clamp =>
    have hall := every rfl
    obtain ⟨v, low, high, rfl⟩ := three_of_admits ha
    exact promote (by simp) hall
  case random =>
    simp only [result]
    split <;> exact ⟨_, rfl⟩
  case round =>
    rcases one_or_two_of_admits ha with ⟨v, rfl⟩ | ⟨v, w, rfl⟩ <;>
      rcases hdom 0 v rfl with ⟨n, rfl⟩ | ⟨x, rfl⟩ | ⟨z, rfl⟩ <;> exact ⟨_, rfl⟩
  case abs | floor | ceil | exp | sin | cos | tan | sinh | cosh | tanh =>
    obtain ⟨v, rfl⟩ := one_of_admits ha
    rcases hdom 0 v rfl with ⟨n, rfl⟩ | ⟨x, rfl⟩ | ⟨z, rfl⟩ <;> exact ⟨_, rfl⟩
  all_goals exact ⟨_, rfl⟩

/-- On arguments that the check lets through, a function fails with no error of types. -/
theorem isTypeError_of_failsOn {c : Fault.Cause} (hvs : ∀ v ∈ vs, v.Solid)
    (ho : b.domains = [.numberOrLiteral] → Ordered vs) (hs : b.isSettled (vs.map Value.type) = true)
    (h : b.FailsOn vs c) : c.isTypeError = false := by
  cases h with
  | value h => exact Fault.Cause.isTypeError_of_isValueError h
  | unordered hb hn hl =>
    obtain ⟨v, hv, hn⟩ := hn
    obtain ⟨w, hw, hl⟩ := hl
    exact absurd (ho (by rcases hb with rfl | rfl <;> rfl)) (not_ordered hv hw hn hl)
  | unconvertible hb he _ hno =>
    subst he
    exact absurd (isScalar_of_settled hb (hvs _ List.mem_cons_self) hs) hno

/-- Functions that see nulls as they are, on solid arguments. -/
theorem lands_lenient (hb : b ≠ .input ∧ b ≠ .print) (hp : b.propagatesNull = false) (hvs : ∀ v ∈ vs, v.Solid)
    (ha : b.arity.admits vs.length = true) (hdom : ∀ i v, vs[i]? = some v → (b.domain i).Holds v) :
    Lands (b.compute vs) (·.HasType (b.result (vs.map Value.type))) := by
  cases b <;> try cases hp
  case input | print => simp at hb
  case tup => exact ⟨.tuple rfl hvs, rfl⟩
  case tab =>
    obtain ⟨v, w, rfl⟩ := two_of_admits ha
    exact lands_table (hdom 0 v rfl) (hvs w (by simp))
  all_goals obtain ⟨v, rfl⟩ := one_of_admits ha
  case isnull => exact ⟨.boolean _, rfl⟩
  case typeof => exact ⟨.literal _, rfl⟩
  case assert =>
    obtain ⟨c, rfl⟩ := hdom 0 v rfl
    cases c
    · rfl
    · exact ⟨.boolean _, rfl⟩

/-- On arguments that the check lets through, a function gives a value of the result type, or fails
for another reason than types. -/
theorem lands_compute (hb : b ≠ .random ∧ b ≠ .input ∧ b ≠ .print) (hvs : ∀ v ∈ vs, v.Solid)
    (ha : b.arity.admits vs.length = true) (hdom : ∀ i v, vs[i]? = some v → (b.domain i).Holds v)
    (ho : Check.oneOrder b (vs.map Value.type) = true) (hs : b.isSettled (vs.map Value.type) = true) :
    Lands (b.compute vs) (·.HasType (b.result (vs.map Value.type))) := by
  have hord : b.domains = [.numberOrLiteral] → Ordered vs := by
    refine fun hd => ordered_of_oneOrder hd (fun v hv => ?_) ho
    obtain ⟨i, hi⟩ := List.getElem?_of_mem hv
    have := hdom i v hi
    rwa [domain_single hd] at this
  cases hp : b.propagatesNull with
  | true =>
    have hkind : b ≠ .tup ∧ b ≠ .tab ∧ b ≠ .print := by
      refine ⟨?_, ?_, ?_⟩ <;> rintro rfl <;> cases hp
    obtain ⟨k, hk⟩ := result_scalar hkind ha hdom hord hs
    refine (yields_compute hb.1 hp ha (fun v hv => (hvs v hv).isNull) hdom).mono (fun w hw => ?_) fun c hc =>
      isTypeError_of_failsOn hvs hord hs hc
    have ht : w.type = b.result (vs.map Value.type) := by
      have hret := hw.2
      cases b <;> first | exact hret | cases hs
    rw [hk] at ht ⊢
    exact Value.IsA.hasType ⟨hw.1, ht⟩
  | false => exact lands_lenient hb.2 hp hvs ha hdom

end Builtin

end Crunch
