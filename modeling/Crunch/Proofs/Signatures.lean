import Crunch.Call
import Crunch.Proofs.Domains

/-!
# Crunch.Proofs.Signatures

Functions on arguments of their domains.

* `Domain.Holds`: what a value of a domain is, if it is no null.
* `Fault.Cause.isValueError`, `Delivers`: the errors that only depend on what a value is, not on its
  type, and the computations that fail with no other ones.
* `Builtin.Returns`: the type of a result. It is the one of the signature, except for roots and
  logarithms of reals, which may leave the reals, and for negative powers of integers.
* `Builtin.FailsOn`: the errors of a function on arguments of its domains.
* `Builtin.yields_compute`, `Builtin.delivers_lenient`: functions that pass nulls on, on arguments
  that are none, and functions that see nulls as they are.
-/

namespace Crunch

/-! ## Domains -/

/-- What a value of a domain is. -/
def Domain.Holds (v : Value) : Domain → Prop
  | .any => True
  | .number => (∃ n, v = .integer n) ∨ ∃ x, v = .numeric x
  | .numberOrImaginary => (∃ n, v = .integer n) ∨ (∃ x, v = .numeric x) ∨ ∃ z, v = .imaginary z
  | .numberOrLiteral => (∃ n, v = .integer n) ∨ (∃ x, v = .numeric x) ∨ ∃ s, v = .literal s
  | .integer => ∃ n, v = .integer n
  | .literal | .literalVariable => ∃ s, v = .literal s
  | .literalOrBytes => (∃ s, v = .literal s) ∨ ∃ bytes, v = .tabchar bytes
  | .literalOrInteger => (∃ s, v = .literal s) ∨ ∃ n, v = .integer n
  | .boolean => ∃ b, v = .boolean b

theorem Value.IsA.holds {d : Domain} {v : Value} {t : Ty} (hv : v.IsA t) (h : d.admits t = true) : d.Holds v := by
  simp only [Domain.admits, hv.isUntyped, Bool.false_or] at h
  cases d <;> simp only [Bool.or_eq_true] at h
  case any => trivial
  case number | literalOrBytes | literalOrInteger => exact h.imp (hv.form ·) (hv.form ·)
  case numberOrImaginary => exact hv.number h
  case numberOrLiteral =>
    rcases h with (h | h) | h
    · exact .inl (hv.form h)
    · exact .inr (.inl (hv.form h))
    · exact .inr (.inr (hv.form h))
  case integer | literal | literalVariable | boolean => exact hv.form h

theorem Domain.not_literal_of_number {v : Value} (h : Domain.number.Holds v) : ¬Domain.literal.Holds v := by
  rintro ⟨s, rfl⟩
  rcases h with ⟨n, h⟩ | ⟨x, h⟩ <;> cases h

/-! ## Errors of values -/

/-- The errors that depend on what a value is, or on the world, but not on types. -/
def Fault.Cause.isValueError : Fault.Cause → Bool
  | .divideByZero | .outOfRange _ | .indexRange _ _ | .notANumber _ | .assertionFailed | .interrupted | .input _ => true
  | _ => false

/-- A result that a predicate describes, or an error of values. -/
abbrev Delivers {α : Type} (r : Except Fault.Cause α) (P : α → Prop) : Prop := Yields r P (·.isValueError = true)

theorem delivers_count {n : Int64} {what : String} : Delivers (count n what) fun _ => True :=
  yields_ite (fun _ => trivial) fun _ => rfl

theorem delivers_room {n width : Nat} {what : String} : Delivers (room n width what) fun _ => True :=
  yields_ite (fun _ => trivial) fun _ => rfl

theorem delivers_gapPosition {n : Int64} {size : Nat} : Delivers (gapPosition n size) fun _ => True :=
  yields_ite (fun _ => trivial) fun _ => rfl

theorem delivers_elementPosition {n : Int64} {size : Nat} :
    Delivers (elementPosition n size) fun p => p < size := by
  refine yields_ite (fun h => ?_) fun _ => rfl
  simp only [yields_ok]
  omega

theorem delivers_truncate {x : Float} : Delivers (truncate x) fun _ => True := by
  unfold truncate
  split <;> trivial

/-! ## Numbers -/

namespace Library

variable {v w : Value}

theorem numeric?_of_number (h : Domain.number.Holds v) : ∃ x, v.numeric? = .ok x := by
  rcases h with ⟨n, rfl⟩ | ⟨x, rfl⟩ <;> exact ⟨_, rfl⟩

theorem delivers_byKind (real : Float → Float) (complex : Imaginary → Imaginary)
    (h : Domain.numberOrImaginary.Holds v) :
    Delivers (byKind real complex v) (·.IsA (if v.type.isScalar .imaginary then Ty.imaginary else Ty.numeric)) := by
  rcases h with ⟨n, rfl⟩ | ⟨x, rfl⟩ | ⟨z, rfl⟩ <;> exact ⟨rfl, rfl⟩

theorem delivers_abs (h : Domain.numberOrImaginary.Holds v) :
    Delivers (Library.abs v) (·.IsA (Builtin.abs.result [v.type])) := by
  rcases h with ⟨n, rfl⟩ | ⟨x, rfl⟩ | ⟨z, rfl⟩ <;> exact ⟨rfl, rfl⟩

theorem delivers_round (h : Domain.numberOrImaginary.Holds v) (digits : Int) (more : List Ty) :
    Delivers (Library.round v digits) (·.IsA (Builtin.round.result (v.type :: more))) := by
  rcases h with ⟨n, rfl⟩ | ⟨x, rfl⟩ | ⟨z, rfl⟩ <;> exact ⟨rfl, rfl⟩

theorem delivers_decimals (h : Domain.integer.Holds v) : Delivers (decimals v) fun _ => True := by
  obtain ⟨n, rfl⟩ := h
  simp only [decimals, Value.integer?]
  exact Yields.bind (P := fun _ => True) trivial fun n _ => yields_ite (fun _ => trivial) fun _ => rfl

/-- A root of a negative real is imaginary. -/
theorem delivers_sqrt (h : Domain.numberOrImaginary.Holds v) :
    Delivers (Library.sqrt v) fun w => w.IsA (Builtin.sqrt.result [v.type]) ∨
      (Domain.number.Holds v ∧ w.IsA Ty.imaginary) := by
  have real : ∀ x : Float, Domain.number.Holds v → Builtin.sqrt.result [v.type] = Ty.numeric →
      let w := if x < 0.0 then Value.imaginary ⟨0.0, (-x).sqrt⟩ else .numeric x.sqrt
      w.IsA (Builtin.sqrt.result [v.type]) ∨ (Domain.number.Holds v ∧ w.IsA Ty.imaginary) := by
    intro x hv ht
    simp only
    split
    · exact .inr ⟨hv, rfl, rfl⟩
    · exact .inl ⟨rfl, ht.symm⟩
  rcases h with ⟨n, rfl⟩ | ⟨x, rfl⟩ | ⟨z, rfl⟩
  · exact real _ (.inl ⟨n, rfl⟩) rfl
  · exact real _ (.inr ⟨x, rfl⟩) rfl
  · exact .inl ⟨rfl, rfl⟩

/-- A logarithm of a negative real is imaginary. -/
theorem delivers_logarithm (real : Float → Float) (complex : Imaginary → Imaginary)
    (h : Domain.numberOrImaginary.Holds v) :
    Delivers (logarithm real complex v) fun w =>
      w.IsA (if v.type.isScalar .imaginary then Ty.imaginary else Ty.numeric) ∨
        (Domain.number.Holds v ∧ w.IsA Ty.imaginary) := by
  rcases h with ⟨n, rfl⟩ | ⟨x, rfl⟩ | ⟨z, rfl⟩
  · refine yields_ite (fun _ => .inl ⟨rfl, rfl⟩) fun _ => yields_ite (fun _ => rfl) fun _ => ?_
    exact .inr ⟨.inl ⟨n, rfl⟩, rfl, rfl⟩
  · refine yields_ite (fun _ => .inl ⟨rfl, rfl⟩) fun _ => yields_ite (fun _ => rfl) fun _ => ?_
    exact .inr ⟨.inr ⟨x, rfl⟩, rfl, rfl⟩
  · exact yields_ite (fun _ => rfl) fun _ => .inl ⟨rfl, rfl⟩

theorem delivers_inverse (name : String) (f : Float → Float) (h : Domain.number.Holds v) :
    Delivers (inverse name f v) (·.IsA Ty.numeric) := by
  obtain ⟨x, hx⟩ := numeric?_of_number h
  unfold inverse
  rw [hx]
  exact Yields.bind (P := fun _ => True) trivial fun x _ => yields_ite (fun _ => ⟨rfl, rfl⟩) fun _ => rfl

theorem delivers_imag (h : Domain.number.Holds v) (h' : Domain.number.Holds w) :
    Delivers (Library.imag v w) (·.IsA Ty.imaginary) := by
  obtain ⟨x, hx⟩ := numeric?_of_number h
  obtain ⟨y, hy⟩ := numeric?_of_number h'
  unfold Library.imag
  rw [hx, hy]
  exact ⟨rfl, rfl⟩

/-! ## Orders -/

theorem promoteAll_reals {ts : List Ty} (hne : ts ≠ []) (h : ∀ t ∈ ts, t = Ty.integer ∨ t = Ty.numeric) :
    Ty.promoteAll ts = Ty.integer ∨ Ty.promoteAll ts = Ty.numeric := by
  have hfold : ∀ (ts : List Ty) (t : Ty), (t = Ty.integer ∨ t = Ty.numeric) →
      (∀ u ∈ ts, u = Ty.integer ∨ u = Ty.numeric) →
      ∃ w, ts.foldl (fun t? t => t?.bind (Ty.promote? · t)) (some t) = some w ∧ (w = Ty.integer ∨ w = Ty.numeric) := by
    intro ts
    induction ts with
    | nil => exact fun t ht _ => ⟨t, rfl, ht⟩
    | cons u ts ih =>
      intro t ht hts
      have hrest : ∀ u ∈ ts, u = Ty.integer ∨ u = Ty.numeric := fun u hu => hts u (List.mem_cons_of_mem _ hu)
      rcases ht with rfl | rfl <;> rcases hts u List.mem_cons_self with rfl | rfl
      · exact ih Ty.integer (.inl rfl) hrest
      · exact ih Ty.numeric (.inr rfl) hrest
      · exact ih Ty.numeric (.inr rfl) hrest
      · exact ih Ty.numeric (.inr rfl) hrest
  cases ts with
  | nil => exact absurd rfl hne
  | cons t ts =>
    have ht := h t List.mem_cons_self
    obtain ⟨w, hw, hr⟩ := hfold ts t ht fun u hu => h u (List.mem_cons_of_mem _ hu)
    have hstart : Ty.promoteAll (t :: ts) = w := by
      rcases ht with rfl | rfl <;> exact congrArg (·.getD Ty.numeric) hw
    rw [hstart]
    exact hr

theorem promoteAll_numbers {vs : List Value} (hne : vs ≠ []) (h : ∀ v ∈ vs, Domain.number.Holds v) :
    Ty.promoteAll (vs.map Value.type) = Ty.integer ∨ Ty.promoteAll (vs.map Value.type) = Ty.numeric := by
  refine promoteAll_reals (by simpa using hne) fun t ht => ?_
  obtain ⟨w, hw, rfl⟩ := List.mem_map.mp ht
  exact (h w hw).imp (fun ⟨_, hw⟩ => hw ▸ rfl) fun ⟨_, hw⟩ => hw ▸ rfl

/-- Real numbers, or literals. -/
inductive Ordered : List Value → Prop where
  | reals {vs : List Value} : (∀ v ∈ vs, Domain.number.Holds v) → Ordered vs
  | literals {vs : List Value} : (∀ v ∈ vs, Domain.literal.Holds v) → Ordered vs

theorem Ordered.mono {vs ws : List Value} (h : Ordered vs) (hs : ∀ w ∈ ws, w ∈ vs) : Ordered ws := by
  cases h with
  | reals h => exact .reals fun w hw => h w (hs w hw)
  | literals h => exact .literals fun w hw => h w (hs w hw)

theorem not_ordered {vs : List Value} (hv : v ∈ vs) (hw : w ∈ vs) (hn : Domain.number.Holds v)
    (hl : Domain.literal.Holds w) : ¬Ordered vs := by
  rintro (h | h)
  · exact Domain.not_literal_of_number (h w hw) hl
  · exact Domain.not_literal_of_number hn (h v hv)

theorem exists_of_not_ordered {vs : List Value} (hall : ∀ v ∈ vs, Domain.numberOrLiteral.Holds v) (h : ¬Ordered vs) :
    (∃ v ∈ vs, Domain.number.Holds v) ∧ ∃ v ∈ vs, Domain.literal.Holds v := by
  have hsplit : ∀ v ∈ vs, Domain.number.Holds v ∨ Domain.literal.Holds v := fun v hv => or_assoc.mpr (hall v hv)
  constructor
  · refine Classical.byContradiction fun hnone => h (.literals fun v hv => ?_)
    exact (hsplit v hv).resolve_left fun hn => hnone ⟨v, hv, hn⟩
  · refine Classical.byContradiction fun hnone => h (.reals fun v hv => ?_)
    exact (hsplit v hv).resolve_right fun hl => hnone ⟨v, hv, hl⟩

/-- One of two numbers or literals tells whether both have an order with further values. -/
theorem Ordered.cons_cons {u : Value} {ws : List Value} (hu : u = v ∨ u = w)
    (hsame : (Domain.number.Holds v ∧ Domain.number.Holds w) ∨ (Domain.literal.Holds v ∧ Domain.literal.Holds w))
    (h : Ordered (u :: ws)) : Ordered (v :: w :: ws) := by
  rcases hsame with ⟨hv, hw⟩ | ⟨hv, hw⟩
  · have hun : Domain.number.Holds u := hu.elim (· ▸ hv) (· ▸ hw)
    cases h with
    | reals h => exact .reals (List.forall_mem_cons.mpr ⟨hv, List.forall_mem_cons.mpr ⟨hw, (List.forall_mem_cons.mp h).2⟩⟩)
    | literals h => exact absurd (h u List.mem_cons_self) (Domain.not_literal_of_number hun)
  · have hul : Domain.literal.Holds u := hu.elim (· ▸ hv) (· ▸ hw)
    cases h with
    | reals h => exact absurd hul (Domain.not_literal_of_number (h u List.mem_cons_self))
    | literals h =>
      exact .literals (List.forall_mem_cons.mpr ⟨hv, List.forall_mem_cons.mpr ⟨hw, (List.forall_mem_cons.mp h).2⟩⟩)

/-- Two numbers or two literals have an order with each other; a number and a literal have none. -/
theorem yields_order_of_holds (hv : Domain.numberOrLiteral.Holds v) (hw : Domain.numberOrLiteral.Holds w) :
    Yields (Operation.order v w)
      (fun _ => (Domain.number.Holds v ∧ Domain.number.Holds w) ∨ (Domain.literal.Holds v ∧ Domain.literal.Holds w))
      fun c => (∃ what, c = .undefined what) ∧ ∀ vs, v ∈ vs → w ∈ vs → ¬Ordered vs := by
  rcases or_assoc.mpr hv with hv | hv <;> rcases or_assoc.mpr hw with hw | hw
  · have ho : ∃ o, Operation.order v w = .ok o := by
      rcases hv with ⟨a, rfl⟩ | ⟨a, rfl⟩ <;> rcases hw with ⟨b, rfl⟩ | ⟨b, rfl⟩ <;> exact ⟨_, rfl⟩
    obtain ⟨o, ho⟩ := ho
    rw [ho]
    exact .inl ⟨hv, hw⟩
  · have ho : ∃ what, Operation.order v w = .error (.undefined what) := by
      obtain ⟨b, rfl⟩ := hw
      rcases hv with ⟨a, rfl⟩ | ⟨a, rfl⟩ <;> exact ⟨_, rfl⟩
    obtain ⟨what, ho⟩ := ho
    rw [ho]
    exact ⟨⟨what, rfl⟩, fun vs hmv hmw => not_ordered hmv hmw hv hw⟩
  · have ho : ∃ what, Operation.order v w = .error (.undefined what) := by
      obtain ⟨a, rfl⟩ := hv
      rcases hw with ⟨b, rfl⟩ | ⟨b, rfl⟩ <;> exact ⟨_, rfl⟩
    obtain ⟨what, ho⟩ := ho
    rw [ho]
    exact ⟨⟨what, rfl⟩, fun vs hmv hmw => not_ordered hmw hmv hw hv⟩
  · obtain ⟨a, rfl⟩ := hv
    obtain ⟨b, rfl⟩ := hw
    exact .inr ⟨⟨a, rfl⟩, ⟨b, rfl⟩⟩

/-- The best of some values is found exactly if they have an order. -/
theorem yields_best (pick : Ordering) {ws : List Value} (hall : ∀ u ∈ v :: ws, Domain.numberOrLiteral.Holds u) :
    Yields (best pick v ws) (fun u => Ordered (v :: ws) ∧ u ∈ v :: ws)
      fun c => (∃ what, c = .undefined what) ∧ ¬Ordered (v :: ws) := by
  induction ws generalizing v with
  | nil =>
    refine ⟨?_, List.mem_cons_self⟩
    rcases or_assoc.mpr (hall v List.mem_cons_self) with h | h
    · exact .reals (List.forall_mem_singleton.mpr h)
    · exact .literals (List.forall_mem_singleton.mpr h)
  | cons w ws ih =>
    have hv := hall v List.mem_cons_self
    have hw := hall w (by simp)
    have ho := yields_order_of_holds hw hv
    simp only [best]
    cases hc : Operation.order w v with
    | error c =>
      rw [hc] at ho
      exact ⟨ho.1, ho.2 _ (by simp) List.mem_cons_self⟩
    | ok o =>
      rw [hc] at ho
      simp only
      have key : ∀ u, u = v ∨ u = w → Yields (best pick u ws) (fun x => Ordered (v :: w :: ws) ∧ x ∈ v :: w :: ws)
          fun c => (∃ what, c = .undefined what) ∧ ¬Ordered (v :: w :: ws) := by
        intro u hu
        have hmem : ∀ x ∈ u :: ws, x ∈ v :: w :: ws := by
          rintro x (_ | ⟨_, hx⟩)
          · rcases hu with rfl | rfl <;> simp
          · exact List.mem_cons_of_mem _ (List.mem_cons_of_mem _ hx)
        refine (ih fun x hx => hall x (hmem x hx)).mono ?_ ?_
        · rintro x ⟨hord, hx⟩
          exact ⟨hord.cons_cons hu (ho.imp And.symm And.symm), hmem x hx⟩
        · rintro c ⟨hc, hno⟩
          exact ⟨hc, fun h => hno (h.mono hmem)⟩
      split
      · exact key w (.inr rfl)
      · exact key v (.inl rfl)

theorem delivers_coerce_number {t : Ty} (h : Domain.number.Holds v) (ht : t = Ty.integer ∨ t = Ty.numeric) :
    Delivers (v.coerce t) (·.IsA t) := by
  rcases ht with rfl | rfl <;> rcases h with ⟨n, rfl⟩ | ⟨x, rfl⟩
  · exact ⟨rfl, rfl⟩
  · exact delivers_truncate.map fun n _ => ⟨rfl, rfl⟩
  · exact ⟨rfl, rfl⟩
  · exact ⟨rfl, rfl⟩

/-- Each of the values is converted to the type of the greatest one. -/
theorem Ordered.delivers {vs : List Value} (h : Ordered vs) (hv : v ∈ vs) :
    Delivers (v.coerce (Builtin.max.result (vs.map Value.type))) (·.IsA (Builtin.max.result (vs.map Value.type))) := by
  cases h with
  | reals h =>
    have hany : (vs.map Value.type).any (·.isScalar .literal) = false := by
      rw [List.any_eq_false]
      intro t ht
      obtain ⟨w, hw, rfl⟩ := List.mem_map.mp ht
      rcases h w hw with ⟨m, rfl⟩ | ⟨y, rfl⟩ <;> exact nofun
    have hres : Builtin.max.result (vs.map Value.type) = Ty.promoteAll (vs.map Value.type) := by
      simp only [Builtin.result, hany, Bool.false_eq_true, if_false]
    rw [hres]
    exact delivers_coerce_number (h v hv) (promoteAll_numbers (List.ne_nil_of_mem hv) h)
  | literals h =>
    obtain ⟨s, rfl⟩ := h v hv
    have hany : (vs.map Value.type).any (·.isScalar .literal) = true :=
      List.any_eq_true.mpr ⟨Ty.literal, List.mem_map_of_mem hv, rfl⟩
    have hres : Builtin.max.result (vs.map Value.type) = Ty.literal := by
      simp only [Builtin.result, hany, if_true]
    rw [hres]
    exact ⟨rfl, rfl⟩

/-- The smallest and the greatest of some values, which fail on both numbers and literals. -/
theorem yields_extremum {b : Builtin} {pick : Ordering} {vs : List Value} (hb : b = .min ∨ b = .max)
    (hne : vs ≠ []) (hall : ∀ v ∈ vs, Domain.numberOrLiteral.Holds v) :
    Yields (extremum b pick vs) (·.IsA (b.result (vs.map Value.type))) fun c =>
      c.isValueError = true ∨ ((∃ what, c = .undefined what) ∧ ¬Ordered vs) := by
  have hres : b.result (vs.map Value.type) = Builtin.max.result (vs.map Value.type) := by
    rcases hb with rfl | rfl <;> rfl
  cases vs with
  | nil => exact absurd rfl hne
  | cons v ws =>
    have hbest := yields_best pick hall
    simp only [extremum]
    cases hc : best pick v ws with
    | error c =>
      rw [hc] at hbest
      exact .inr hbest
    | ok w =>
      rw [hc] at hbest
      rw [hres]
      exact (hbest.1.delivers hbest.2).mono (fun _ => id) fun _ => .inl

theorem delivers_clamp {low high : Value} (h : ∀ u ∈ [v, low, high], Domain.number.Holds u) :
    Delivers (Library.clamp v low high) (·.IsA (Builtin.clamp.result ([v, low, high].map Value.type))) := by
  have ht := promoteAll_numbers (by simp) h
  have order : ∀ {u w : Value}, u ∈ [v, low, high] → w ∈ [v, low, high] →
      Delivers (Operation.order u w) fun _ => True := by
    intro u w hu hw
    rcases h u hu with ⟨a, rfl⟩ | ⟨a, rfl⟩ <;> rcases h w hw with ⟨b, rfl⟩ | ⟨b, rfl⟩ <;> trivial
  have coerce : ∀ {u : Value}, u ∈ [v, low, high] →
      Delivers (u.coerce (Builtin.clamp.result ([v, low, high].map Value.type)))
        (·.IsA (Builtin.clamp.result ([v, low, high].map Value.type))) :=
    fun hu => delivers_coerce_number (h _ hu) ht
  have hv : v ∈ [v, low, high] := by simp
  have hlow : low ∈ [v, low, high] := by simp
  have hhigh : high ∈ [v, low, high] := by simp
  refine (order hlow hhigh).bind fun between _ => yields_ite (fun _ => rfl) fun _ => ?_
  refine (order hv hlow).bind fun below _ => yields_ite (fun _ => coerce hlow) fun _ => ?_
  exact (order hv hhigh).bind fun above _ => yields_ite (fun _ => coerce hhigh) fun _ => coerce hv

/-! ## Texts and bytes -/

theorem delivers_onText (f : List Char → List Char) (h : Domain.literal.Holds v) :
    Delivers (onText f v) (·.IsA Ty.literal) := by
  obtain ⟨s, rfl⟩ := h
  exact ⟨rfl, rfl⟩

theorem delivers_substring {index : Value} {length : Option Value} (h : Domain.literal.Holds v)
    (hi : Domain.integer.Holds index) (hl : ∀ n ∈ length, Domain.integer.Holds n) :
    Delivers (substring v index length) (·.IsA Ty.literal) := by
  obtain ⟨s, rfl⟩ := h
  obtain ⟨i, rfl⟩ := hi
  refine delivers_gapPosition.bind fun start _ => ?_
  cases length with
  | none => exact ⟨rfl, rfl⟩
  | some n =>
    obtain ⟨m, rfl⟩ := hl n rfl
    exact delivers_count.bind fun _ _ => ⟨rfl, rfl⟩

theorem delivers_lastPart {length : Value} (h : Domain.literal.Holds v) (hl : Domain.integer.Holds length) :
    Delivers (lastPart v length) (·.IsA Ty.literal) := by
  obtain ⟨s, rfl⟩ := h
  obtain ⟨n, rfl⟩ := hl
  exact delivers_count.bind fun _ _ => ⟨rfl, rfl⟩

theorem delivers_ofCode (h : Domain.integer.Holds v) : Delivers (ofCode v) (·.IsA Ty.literal) := by
  obtain ⟨n, rfl⟩ := h
  refine Yields.bind (P := fun _ => True) trivial fun n _ => ?_
  refine Yields.bind (P := fun _ => True) ?_ fun c _ => ⟨rfl, rfl⟩
  exact yields_ite (fun _ => trivial) fun _ => rfl

theorem delivers_bytesOf (h : Domain.literalOrBytes.Holds v) : Delivers (bytesOf v) fun _ => True := by
  rcases h with ⟨s, rfl⟩ | ⟨bytes, rfl⟩ <;> trivial

theorem delivers_hex {width : Option Value} (h : Domain.integer.Holds v)
    (hw : ∀ w ∈ width, Domain.integer.Holds w) : Delivers (hex v width) (·.IsA Ty.literal) := by
  obtain ⟨n, rfl⟩ := h
  cases width with
  | none => exact ⟨rfl, rfl⟩
  | some w =>
    obtain ⟨m, rfl⟩ := hw w rfl
    exact delivers_count.bind fun _ _ => ⟨rfl, rfl⟩

theorem delivers_hash {bound : Option Value} (h : Domain.literalOrBytes.Holds v)
    (hb : ∀ w ∈ bound, Domain.integer.Holds w) : Delivers (hash v bound) (·.IsA Ty.integer) := by
  refine (delivers_bytesOf h).bind fun bytes _ => ?_
  have below : ∀ m n : Int64, Delivers
      (if 0 < m.toInt then .ok (.integer n) else .error (.outOfRange (.hashSize m))) (Value.IsA · Ty.integer) :=
    fun m n => yields_ite (fun _ => ⟨rfl, rfl⟩) fun _ => rfl
  cases bound with
  | none => exact below hashRange _
  | some w =>
    obtain ⟨m, rfl⟩ := hb w rfl
    exact below m _

theorem delivers_base64Encode (h : Domain.literalOrBytes.Holds v) : Delivers (base64Encode v) (·.IsA Ty.literal) :=
  (delivers_bytesOf h).map fun _ _ => ⟨rfl, rfl⟩

theorem delivers_base64Decode (h : Domain.literal.Holds v) : Delivers (base64Decode v) (·.IsA Ty.tabchar) := by
  obtain ⟨s, rfl⟩ := h
  refine Yields.bind (P := fun _ => True) trivial fun s _ => ?_
  split
  · exact ⟨rfl, rfl⟩
  · rfl

theorem delivers_toBytes (h : Domain.literalOrInteger.Holds v) : Delivers (toBytes v) (·.IsA Ty.tabchar) := by
  rcases h with ⟨s, rfl⟩ | ⟨n, rfl⟩
  · exact ⟨rfl, rfl⟩
  · exact delivers_count.bind fun _ _ => delivers_room.bind fun _ _ => ⟨rfl, rfl⟩

/-! ## Conversions -/

/-- What converts to other kinds. -/
def IsScalar (v : Value) : Prop :=
  (∃ b, v = .boolean b) ∨ (∃ n, v = .integer n) ∨ (∃ x, v = .numeric x) ∨ (∃ z, v = .imaginary z) ∨
    ∃ s, v = .literal s

theorem delivers_readNumeric {s : String} : Delivers (readNumeric s) fun _ => True := by
  unfold readNumeric
  split <;> trivial

theorem delivers_realPart {z : Imaginary} {what : String} : Delivers (realPart z what) fun _ => True :=
  yields_ite (fun _ => trivial) fun _ => rfl

theorem delivers_toBoolean (h : IsScalar v) : Delivers (toBoolean v) (·.IsA Ty.boolean) := by
  rcases h with ⟨b, rfl⟩ | ⟨n, rfl⟩ | ⟨x, rfl⟩ | ⟨z, rfl⟩ | ⟨s, rfl⟩
  case inr.inr.inr.inr =>
    refine yields_ite (fun _ => ⟨rfl, rfl⟩) fun _ => yields_ite (fun _ => ⟨rfl, rfl⟩) fun _ => ?_
    exact delivers_readNumeric.map fun _ _ => ⟨rfl, rfl⟩
  all_goals exact ⟨rfl, rfl⟩

theorem delivers_toNumeric (h : IsScalar v) : Delivers (toNumeric v) (·.IsA Ty.numeric) := by
  rcases h with ⟨b, rfl⟩ | ⟨n, rfl⟩ | ⟨x, rfl⟩ | ⟨z, rfl⟩ | ⟨s, rfl⟩
  · exact ⟨rfl, rfl⟩
  · exact ⟨rfl, rfl⟩
  · exact ⟨rfl, rfl⟩
  · exact delivers_realPart.map fun _ _ => ⟨rfl, rfl⟩
  · exact delivers_readNumeric.map fun _ _ => ⟨rfl, rfl⟩

theorem delivers_toInteger (h : IsScalar v) : Delivers (toInteger v) (·.IsA Ty.integer) := by
  rcases h with ⟨b, rfl⟩ | ⟨n, rfl⟩ | ⟨x, rfl⟩ | ⟨z, rfl⟩ | ⟨s, rfl⟩
  · exact ⟨rfl, rfl⟩
  · exact ⟨rfl, rfl⟩
  · exact delivers_truncate.map fun _ _ => ⟨rfl, rfl⟩
  · exact delivers_realPart.bind fun _ _ => delivers_truncate.bind fun _ _ => ⟨rfl, rfl⟩
  · simp only [toInteger]
    split
    · exact ⟨rfl, rfl⟩
    · exact delivers_readNumeric.bind fun _ _ => delivers_truncate.bind fun _ _ => ⟨rfl, rfl⟩

/-- What is neither a null nor a scalar does not convert to any of the three kinds. -/
theorem convert_unconvertible (hn : v.isNull = false) (h : ¬IsScalar v) :
    (∃ m, toBoolean v = .error (.mismatch m)) ∧ (∃ m, toNumeric v = .error (.mismatch m)) ∧
      ∃ m, toInteger v = .error (.mismatch m) := by
  cases v with
  | null t => cases hn
  | boolean b => exact absurd (.inl ⟨b, rfl⟩) h
  | integer n => exact absurd (.inr (.inl ⟨n, rfl⟩)) h
  | numeric x => exact absurd (.inr (.inr (.inl ⟨x, rfl⟩))) h
  | imaginary z => exact absurd (.inr (.inr (.inr (.inl ⟨z, rfl⟩)))) h
  | literal s => exact absurd (.inr (.inr (.inr (.inr ⟨s, rfl⟩)))) h
  | _ => exact ⟨⟨_, rfl⟩, ⟨_, rfl⟩, ⟨_, rfl⟩⟩

/-- Copies of one value stay as they are when they are made a collection of its type. -/
theorem coerceAll_replicate (v : Value) (n : Nat) :
    Value.coerceAll (List.replicate n v) v.type = .ok (List.replicate n v) := by
  induction n with
  | zero => rfl
  | succ n ih => simp [List.replicate_succ, Value.coerceAll, Value.coerce_self, ih]

theorem ofValues_replicate (v : Value) (n : Nat) :
    ∃ e, Collection.ofValues (List.replicate n v) = .ok ⟨e, List.replicate n v⟩ := by
  have hself : ∀ t : Ty, Ty.unify? t t = some t := by
    intro t
    simp [Ty.unify?]
  have hunify : ∀ n, Collection.unifyAll v.type (List.replicate n v) = .ok v.type := by
    intro n
    induction n with
    | zero => rfl
    | succ n ih => simp [List.replicate_succ, Collection.unifyAll, hself, ih]
  cases n with
  | zero => exact ⟨Ty.untyped, rfl⟩
  | succ n =>
    have hfirst : Collection.unifyAll Ty.untyped (List.replicate (n + 1) v) = .ok v.type := hunify n
    refine ⟨v.type, ?_⟩
    simp only [Collection.ofValues, hfirst, coerceAll_replicate]
    rfl

theorem delivers_table {n : Value} (hn : Domain.integer.Holds n) (v : Value) :
    Delivers (table n v) fun w => ∃ m, w = .collection v.type (List.replicate m v) := by
  obtain ⟨n, rfl⟩ := hn
  simp only [table, Value.isNull, Bool.false_eq_true, if_false, Value.integer?]
  refine Yields.bind (P := fun _ => True) trivial fun n _ => delivers_count.bind fun n _ => delivers_room.bind fun n _ => ?_
  obtain ⟨e, he⟩ := ofValues_replicate v n
  have hretype : (Collection.mk e (List.replicate n v)).retype v.type = .ok ⟨v.type, List.replicate n v⟩ := by
    simp only [Collection.retype, coerceAll_replicate]
    rfl
  rw [he]
  change Yields ((Collection.mk e (List.replicate n v)).retype v.type >>= fun c => pure c.value) _ _
  rw [hretype]
  exact ⟨n, rfl⟩

end Library

/-! ## Calls -/

namespace Builtin

open Library

variable {b : Builtin} {vs : List Value}

theorem domain_single {d : Domain} (h : b.domains = [d]) (i : Nat) : b.domain i = d := by
  unfold domain
  rw [h]
  cases i <;> rfl

/-- Arguments of all domains pass the check of types. -/
theorem misfit?_of_admits {types : List Ty} (h : ∀ i t, types[i]? = some t → (b.domain i).admits t = true) :
    b.misfit? types = none := by
  unfold misfit?
  rw [List.findSome?_eq_none_iff]
  intro q hq
  rw [List.mem_zipIdx_iff_getElem?] at hq
  simp only [h q.2 q.1 hq, if_true]

theorem one_of_admits (ha : (Arity.exactly 1).admits vs.length = true) : ∃ v, vs = [v] :=
  List.length_eq_one_iff.mp (beq_iff_eq.mp ha)

theorem two_of_admits (ha : (Arity.exactly 2).admits vs.length = true) : ∃ v w, vs = [v, w] := by
  match vs, ha with
  | [v, w], _ => exact ⟨v, w, rfl⟩

theorem three_of_admits (ha : (Arity.exactly 3).admits vs.length = true) : ∃ v w u, vs = [v, w, u] := by
  match vs, ha with
  | [v, w, u], _ => exact ⟨v, w, u, rfl⟩

theorem one_or_two_of_admits (ha : (Arity.oneOf [1, 2]).admits vs.length = true) :
    (∃ v, vs = [v]) ∨ ∃ v w, vs = [v, w] := by
  match vs, ha with
  | [v], _ => exact .inl ⟨v, rfl⟩
  | [v, w], _ => exact .inr ⟨v, w, rfl⟩

theorem two_or_three_of_admits (ha : (Arity.oneOf [2, 3]).admits vs.length = true) :
    (∃ v w, vs = [v, w]) ∨ ∃ v w u, vs = [v, w, u] := by
  match vs, ha with
  | [v, w], _ => exact .inl ⟨v, w, rfl⟩
  | [v, w, u], _ => exact .inr ⟨v, w, u, rfl⟩

/-- The type of a result. Roots and logarithms of reals may leave the reals, and negative powers of
integers the integers. -/
def Returns (b : Builtin) (vs : List Value) (w : Value) : Prop :=
  let t := b.result (vs.map Value.type)
  match b, vs with
  | .pow, [v, e] => w.type = BinaryOp.power.landing v e t
  | .sqrt, [v] | .log, [v] | .log10, [v] => w.type = t ∨ (Domain.number.Holds v ∧ w.type = Ty.imaginary)
  | _, _ => w.type = t

/-- The errors of a function on arguments of its domains. -/
inductive FailsOn (b : Builtin) (vs : List Value) : Fault.Cause → Prop where
  | value {c : Fault.Cause} : c.isValueError = true → FailsOn b vs c
  /-- Numbers and literals have no order with each other. -/
  | unordered {what : Undefined} : b = .min ∨ b = .max → (∃ v ∈ vs, Domain.number.Holds v) →
      (∃ v ∈ vs, Domain.literal.Holds v) → FailsOn b vs (.undefined what)
  /-- Byte arrays and what has parts or an identity do not convert. -/
  | unconvertible {what : Mismatch} {v : Value} : b = .bool ∨ b = .num ∨ b = .int → vs = [v] →
      v.isNull = false → ¬IsScalar v → FailsOn b vs (.mismatch what)

theorem returns_of_isA {w : Value} (h : w.IsA (b.result (vs.map Value.type)))
    (hb : b ≠ .pow) : b.Returns vs w := by
  unfold Returns
  split
  · exact absurd rfl hb
  all_goals first | exact .inl h.type | exact h.type

theorem yields_conversion {v : Value} {r : Except Fault.Cause Value} {t : Ty}
    (hb : b = .bool ∨ b = .num ∨ b = .int) (hn : v.isNull = false) (hr : IsScalar v → Delivers r (·.IsA t))
    (he : ¬IsScalar v → ∃ m, r = .error (.mismatch m)) : Yields r (·.IsA t) (b.FailsOn [v]) := by
  by_cases hs : IsScalar v
  · exact (hr hs).mono (fun _ => id) fun _ => .value
  · obtain ⟨m, hm⟩ := he hs
    rw [hm]
    exact .unconvertible hb rfl hn hs

/-- Functions that pass nulls on, on other arguments of their domains. -/
theorem yields_compute (hb : b ≠ .random) (hp : b.propagatesNull = true) (ha : b.arity.admits vs.length = true)
    (hn : ∀ v ∈ vs, v.isNull = false) (hdom : ∀ i v, vs[i]? = some v → (b.domain i).Holds v) :
    Yields (b.compute vs) (fun w => w.isNull = false ∧ b.Returns vs w) (b.FailsOn vs) := by
  have hnone : ∀ v ∈ (none : Option Value), Domain.integer.Holds v := by simp
  -- a function without a deviation from its signature
  have plain : b ≠ .pow → Delivers (b.compute vs) (·.IsA (b.result (vs.map Value.type))) →
      Yields (b.compute vs) (fun w => w.isNull = false ∧ b.Returns vs w) (b.FailsOn vs) :=
    fun hpow h => h.mono (fun w hw => ⟨hw.isNull, returns_of_isA hw hpow⟩) fun _ => .value
  have every : ∀ {d : Domain}, b.domains = [d] → ∀ v ∈ vs, d.Holds v := by
    intro d hd v hv
    obtain ⟨i, hi⟩ := List.getElem?_of_mem hv
    have := hdom i v hi
    rwa [domain_single hd] at this
  cases b
  case isnull | typeof | tup | tab | input | print | assert => cases hp
  case random => exact absurd rfl hb
  case min | max =>
    have hne : vs ≠ [] := by
      rintro rfl
      cases ha
    have hall := every rfl
    refine (yields_extremum (by simp) hne hall).mono (fun w hw => ⟨hw.isNull, returns_of_isA hw nofun⟩) fun c hc => ?_
    rcases hc with hc | ⟨⟨what, rfl⟩, hno⟩
    · exact .value hc
    · have hmix := exists_of_not_ordered hall hno
      exact .unordered (by simp) hmix.1 hmix.2
  case clamp =>
    refine plain nofun ?_
    have hall := every rfl
    obtain ⟨v, low, high, rfl⟩ := three_of_admits ha
    exact delivers_clamp hall
  case round =>
    refine plain nofun ?_
    rcases one_or_two_of_admits ha with ⟨v, rfl⟩ | ⟨v, w, rfl⟩
    · exact delivers_round (hdom 0 v rfl) 0 []
    · exact (delivers_decimals (hdom 1 w rfl)).bind fun digits _ => delivers_round (hdom 0 v rfl) digits _
  case hex =>
    refine plain nofun ?_
    rcases one_or_two_of_admits ha with ⟨v, rfl⟩ | ⟨v, w, rfl⟩
    · exact delivers_hex (hdom 0 v rfl) hnone
    · exact delivers_hex (hdom 0 v rfl) fun u hu => Option.some.inj hu ▸ hdom 1 w rfl
  case hash =>
    refine plain nofun ?_
    rcases one_or_two_of_admits ha with ⟨v, rfl⟩ | ⟨v, w, rfl⟩
    · exact delivers_hash (hdom 0 v rfl) hnone
    · exact delivers_hash (hdom 0 v rfl) fun u hu => Option.some.inj hu ▸ hdom 1 w rfl
  case substr =>
    refine plain nofun ?_
    rcases two_or_three_of_admits ha with ⟨v, w, rfl⟩ | ⟨v, w, u, rfl⟩
    · exact delivers_substring (hdom 0 v rfl) (hdom 1 w rfl) hnone
    · exact delivers_substring (hdom 0 v rfl) (hdom 1 w rfl) fun n hn => Option.some.inj hn ▸ hdom 2 u rfl
  case imag =>
    refine plain nofun ?_
    obtain ⟨v, w, rfl⟩ := two_of_admits ha
    exact delivers_imag (hdom 0 v rfl) (hdom 1 w rfl)
  case rsubstr =>
    refine plain nofun ?_
    obtain ⟨v, w, rfl⟩ := two_of_admits ha
    exact delivers_lastPart (hdom 0 v rfl) (hdom 1 w rfl)
  case pow =>
    obtain ⟨v, e, rfl⟩ := two_of_admits ha
    have hpromote : Ty.promote? v.type e.type = some (Builtin.pow.result ([v, e].map Value.type)) := by
      rcases hdom 0 v rfl with ⟨a, rfl⟩ | ⟨a, rfl⟩ | ⟨a, rfl⟩ <;>
        rcases hdom 1 e rfl with ⟨b, rfl⟩ | ⟨b, rfl⟩ | ⟨b, rfl⟩ <;> rfl
    refine (Operation.yields_power (hn v (by simp)) (hn e (by simp)) hpromote).mono
      (fun w hw => ⟨hw.isNull, hw.type⟩) fun c hc => .value ?_
    rw [show c = .divideByZero from hc]
    rfl
  all_goals obtain ⟨v, rfl⟩ := one_of_admits ha
  case sqrt =>
    refine (delivers_sqrt (hdom 0 v rfl)).mono (fun w hw => ?_) fun _ => .value
    rcases hw with hw | ⟨hv, hw⟩
    · exact ⟨hw.isNull, .inl hw.type⟩
    · exact ⟨hw.isNull, .inr ⟨hv, hw.type⟩⟩
  case log | log10 =>
    refine (delivers_logarithm _ _ (hdom 0 v rfl)).mono (fun w hw => ?_) fun _ => .value
    rcases hw with hw | ⟨hv, hw⟩
    · exact ⟨hw.isNull, .inl hw.type⟩
    · exact ⟨hw.isNull, .inr ⟨hv, hw.type⟩⟩
  case bool | num | int =>
    have hv := hn v (by simp)
    refine Yields.mono (yields_conversion ?_ hv ?_ fun hs => ?_)
      (fun w hw => ⟨hw.isNull, returns_of_isA hw nofun⟩) fun _ => id
    · simp
    · first | exact delivers_toBoolean | exact delivers_toNumeric | exact delivers_toInteger
    · have hc := convert_unconvertible hv hs
      first | exact hc.1 | exact hc.2.1 | exact hc.2.2
  all_goals refine plain nofun ?_
  case abs => exact delivers_abs (hdom 0 v rfl)
  case floor | ceil | exp | sin | cos | tan | sinh | cosh | tanh => exact delivers_byKind _ _ (hdom 0 v rfl)
  case asin | acos => exact delivers_inverse _ _ (hdom 0 v rfl)
  case atan =>
    rcases hdom 0 v rfl with ⟨n, rfl⟩ | ⟨x, rfl⟩ <;> exact ⟨rfl, rfl⟩
  case re | im =>
    rcases hdom 0 v rfl with ⟨n, rfl⟩ | ⟨x, rfl⟩ | ⟨z, rfl⟩ <;> exact ⟨rfl, rfl⟩
  case b64enc => exact delivers_base64Encode (hdom 0 v rfl)
  case b64dec => exact delivers_base64Decode (hdom 0 v rfl)
  case bytes => exact delivers_toBytes (hdom 0 v rfl)
  case trim | ltrim | rtrim | upper | lower => exact delivers_onText _ (hdom 0 v rfl)
  case chr => exact delivers_ofCode (hdom 0 v rfl)
  case str => exact ⟨rfl, rfl⟩

/-- Functions that see nulls as they are, on any arguments of their domains. -/
theorem delivers_lenient (hb : b ≠ .input ∧ b ≠ .print) (hp : b.propagatesNull = false)
    (ha : b.arity.admits vs.length = true) (hdom : ∀ i v, vs[i]? = some v → (b.domain i).admits v.type = true) :
    Delivers (b.compute vs) (·.type = b.result (vs.map Value.type)) := by
  cases b <;> try cases hp
  case input | print => simp at hb
  case tup => rfl
  case tab =>
    obtain ⟨n, v, rfl⟩ := two_of_admits ha
    cases hn : n.isNull with
    | true =>
      simp only [compute, table, hn, if_true]
      rfl
    | false =>
      refine (delivers_table ((Value.IsA.of_isNull hn).holds (hdom 0 n rfl)) v).mono ?_ fun _ => id
      rintro w ⟨m, rfl⟩
      rfl
  all_goals obtain ⟨v, rfl⟩ := one_of_admits ha
  case isnull | typeof => rfl
  case assert =>
    have hd := hdom 0 v rfl
    cases hn : v.isNull with
    | true =>
      obtain ⟨t, rfl⟩ := Value.isNull_iff.mp hn
      have hc : (Value.null t).condition = .ok false := if_pos hd
      simp only [compute, hc]
      rfl
    | false =>
      obtain ⟨c, rfl⟩ := (Value.IsA.of_isNull hn).holds hd
      cases c <;> rfl

end Builtin
end Crunch
