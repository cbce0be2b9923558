import Crunch.Ty.Domain

/-!
# Crunch.Proofs.Ty

Laws of types.

* `Ty.arrayOf_element?`, `Ty.eq_arrayOf_of_element?`: a collection type and its element type give
  each other.
* `Ty.accepts_self`: a value may be stored in a slot of its own type.
* `Ty.isExact`: the types that a converted value has exactly. The untyped type is not one of them,
  because it takes values as they are, and neither is a number type that carries fields or a name.
-/

namespace Crunch
namespace Ty

@[simp] theorem level_withLevel (l : Nat) (t : Ty) : (t.withLevel l).level = l := by
  cases t <;> rfl

@[simp] theorem kind_withLevel (l : Nat) (t : Ty) : (t.withLevel l).kind = t.kind := by
  cases t <;> rfl

@[simp] theorem withLevel_withLevel (l m : Nat) (t : Ty) :
    (t.withLevel m).withLevel l = t.withLevel l := by
  cases t <;> rfl

@[simp] theorem withLevel_level (t : Ty) : t.withLevel t.level = t := by
  cases t <;> rfl

@[simp] theorem level_arrayOf (t : Ty) : t.arrayOf.level = t.level + 1 := by
  simp [arrayOf]

@[simp] theorem kind_arrayOf (t : Ty) : t.arrayOf.kind = t.kind := by
  simp [arrayOf]

@[simp] theorem arrayOf_element? (t : Ty) : t.arrayOf.element? = some t := by
  simp [element?, arrayOf]

theorem arrayOf_injective {a b : Ty} (h : a.arrayOf = b.arrayOf) : a = b := by
  have := congrArg element? h
  simpa using this

@[simp] theorem arrayOf_inj {a b : Ty} : a.arrayOf = b.arrayOf ↔ a = b :=
  ⟨arrayOf_injective, fun h => h ▸ rfl⟩

theorem eq_arrayOf_of_element? {t e : Ty} (h : t.element? = some e) : t = e.arrayOf := by
  simp only [element?] at h
  split at h
  · rename_i hl
    cases h
    simp only [arrayOf, level_withLevel, withLevel_withLevel]
    rw [Nat.sub_add_cancel hl, withLevel_level]
  · cases h

theorem element?_eq_none {t : Ty} : t.element? = none ↔ t.level = 0 := by
  simp only [element?]
  split <;> simp <;> omega

theorem element?_of_level_pos {t : Ty} (h : 0 < t.level) : ∃ e, t.element? = some e := by
  simp [element?, h]

theorem isUntyped_iff {t : Ty} : t.isUntyped = true ↔ t.kind = .noType ∧ t.level = 0 := by
  simp [isUntyped]

@[simp] theorem isUntyped_arrayOf (t : Ty) : t.arrayOf.isUntyped = false := by
  simp [isUntyped]

theorem isNumber_iff {t : Ty} : t.isNumber = true ↔ t.level = 0 ∧ t.kind.isNumber = true := by
  simp [isNumber]

theorem isScalar_iff {k : Kind} {t : Ty} : t.isScalar k = true ↔ t.level = 0 ∧ t.kind = k := by
  simp [isScalar]

@[simp] theorem accepts_self (t : Ty) : t.accepts t = true := by
  unfold accepts
  split
  · rfl
  · cases h : t.kind <;> simp [Kind.isNumber]

/-- A type that accepts another one has its level, unless one of them is untyped. -/
theorem accepts_level {t u : Ty} (h : t.accepts u = true) (ht : t.isUntyped = false)
    (hu : u.isUntyped = false) : t.level = u.level := by
  simp only [accepts, ht, hu, Bool.or_self, Bool.false_eq_true, if_false] at h
  split at h
  · cases h
  · rename_i hl
    simpa using hl

/-- Between kinds that are no numbers and not missing, only a type itself is accepted. -/
theorem accepts_eq {t u : Ty} (h : t.accepts u = true) (ht : t.kind ≠ .noType) (hu : u.kind ≠ .noType)
    (hn : t.kind.isNumber = false ∨ u.kind.isNumber = false) : t = u := by
  have ht' : t.isUntyped = false := by simp [isUntyped, ht]
  have hu' : u.isUntyped = false := by simp [isUntyped, hu]
  have hb : (t.kind.isNumber && u.kind.isNumber) = false := by
    rcases hn with hn | hn <;> simp [hn]
  simp only [accepts, ht', hu', Bool.or_self, Bool.false_eq_true, if_false, ht, hu, or_self, hb] at h
  split at h
  · cases h
  · simpa using h

/-- A type that converted values have exactly. -/
def isExact (t : Ty) : Bool := !t.isUntyped && !(t.isNumber && t != scalar t.kind)

theorem isExact_of_level_pos {t : Ty} (h : 0 < t.level) : t.isExact = true := by
  simp [isExact, isUntyped, isNumber, Nat.ne_of_gt h]

@[simp] theorem isExact_arrayOf (t : Ty) : t.arrayOf.isExact = true := isExact_of_level_pos (by simp)

theorem isExact_scalar {k : Kind} (h : k ≠ .noType) : (scalar k).isExact = true := by
  simp [isExact, isUntyped, kind, h]

theorem level_pos_of_noType {t : Ty} (hu : t.isUntyped = false) (hk : t.kind = .noType) : 0 < t.level := by
  simp [isUntyped, hk] at hu
  omega

/-- The ways in which two types have a common one. -/
theorem unify?_cases {a b c : Ty} (h : unify? a b = some c) :
    (a.isUntyped = true ∧ c = b) ∨ (c = a ∧ (b.isUntyped = true ∨ a = b)) ∨
      (a.isNumber = true ∧ b.isNumber = true ∧ promote? a b = some c) ∨
      (a.level = b.level ∧ a.kind = .noType ∧ c = b) ∨ (a.level = b.level ∧ b.kind = .noType ∧ c = a) := by
  simp only [unify?] at h
  split at h
  · rename_i ha
    cases h
    exact .inl ⟨ha, rfl⟩
  · split at h
    · rename_i hb
      cases h
      exact .inr (.inl ⟨rfl, hb⟩)
    · split at h
      · rename_i hn
        simp only [Bool.and_eq_true] at hn
        exact .inr (.inr (.inl ⟨hn.1, hn.2, h⟩))
      · split at h
        · rename_i hl
          cases h
          split
          · rename_i hk
            exact .inr (.inr (.inr (.inl ⟨hl.1, hk, rfl⟩)))
          · rename_i hk
            exact .inr (.inr (.inr (.inr ⟨hl.1, hl.2.resolve_left hk, rfl⟩)))
        · cases h

/-- The common type of two types is exact as soon as one of them is. -/
theorem isExact_unify? {a b c : Ty} (h : unify? a b = some c) (hx : a.isExact = true ∨ b.isExact = true) :
    c.isExact = true := by
  have huntyped : ∀ {t : Ty}, t.isUntyped = true → t.isExact = false := fun ht => by simp [isExact, ht]
  simp only [unify?] at h
  split at h
  · rename_i ha
    cases h
    exact hx.resolve_left (by simp [huntyped ha])
  · rename_i ha
    have ha' : a.isUntyped = false := by simpa using ha
    split at h
    · rename_i hb
      cases h
      rcases hb with hb | rfl
      · exact hx.resolve_right (by simp [huntyped hb])
      · exact hx.elim id id
    · rename_i hb
      have hb' : b.isUntyped = false := by
        cases hbu : b.isUntyped with
        | false => rfl
        | true => exact absurd (.inl hbu) hb
      split at h
      · rename_i hn
        simp only [promote?, ha', hb', hn, if_true] at h
        cases h
        simp only [Bool.and_eq_true, isNumber_iff] at hn
        refine isExact_scalar ?_
        split <;> intro hk <;> simp_all [Kind.isNumber]
      · split at h
        · rename_i hl
          cases h
          split
          · rename_i hk
            exact isExact_of_level_pos (hl.1 ▸ level_pos_of_noType ha' hk)
          · rename_i hk
            exact isExact_of_level_pos (hl.1 ▸ level_pos_of_noType hb' (hl.2.resolve_left hk))
        · cases h

/-- An exact number type is nothing but its kind. -/
theorem eq_scalar_of_isExact {t : Ty} (h : t.isExact = true) (hn : t.isNumber = true) :
    t = scalar t.kind := by
  simp only [isExact, hn, Bool.true_and, Bool.and_eq_true, Bool.not_eq_true', bne_eq_false_iff_eq] at h
  exact h.2

end Ty
end Crunch
