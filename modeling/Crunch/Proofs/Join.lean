import Crunch.Proofs.Check
import Crunch.Proofs.Conversion

/-!
# Crunch.Proofs.Join

The common type of the elements of a collection.

* `Ty.Below`: the order of element types. The untyped type is below all others, a type without a kind is below
  the types of its level, and the numbers are a chain. The types below one type are a chain, too.
* `Ty.unify?_eq`: two types have a common one exactly if one of them is below the other; it is the upper one.
* `Collection.unifyAll_eq_ok_iff`: the common type of some values is the greatest of their types. So neither
  the order of the values nor the place of the brackets matters.
* `Value.nullsFit`: whether the nulls inside a collection may be stored at their places in a slot.
* `Value.coerce_of_below`: a value converts to a type above its own, unless it is a collection without a kind
  with nulls that do not fit.
* `Collection.order_of_elements_exactly`: what this means for collections of some values, and for the check of
  their literals.
-/

namespace Crunch

namespace Ty

/-- The order of element types. -/
def Below (a b : Ty) : Prop :=
  a.isUntyped = true ∨ a = b ∨ (a.isNumber = true ∧ b.isNumber = true ∧ a.kind.rank ≤ b.kind.rank) ∨
    (a.level = b.level ∧ a.kind = .noType)

instance (a b : Ty) : Decidable (a.Below b) := inferInstanceAs (Decidable (_ ∨ _))

variable {a b c u : Ty} {ts us : List Ty}

/-! ## The order -/

theorem kind_ne_noType_of_isNumber (h : a.isNumber = true) : a.kind ≠ .noType := by
  intro hk
  have hn := (isNumber_iff.mp h).2
  rw [hk] at hn
  cases hn

theorem isUntyped_of_level_zero (hk : a.kind = .noType) (hl : a.level = 0) : a.isUntyped = true :=
  isUntyped_iff.mpr ⟨hk, hl⟩

/-- The kind of a number is known from its rank. -/
theorem kind_eq_of_rank_eq (ha : a.isNumber = true) (hb : b.isNumber = true) (h : a.kind.rank = b.kind.rank) :
    a.kind = b.kind := by
  have ha' := (isNumber_iff.mp ha).2
  have hb' := (isNumber_iff.mp hb).2
  cases hka : a.kind <;> cases hkb : b.kind <;> simp_all [Kind.isNumber, Kind.rank]

namespace WellFormed

/-- A type without a kind is known from its level. -/
theorem eq_of_noType (h : a.WellFormed) (hk : a.kind = .noType) : a = .plain .noType a.level := by
  cases h with
  | plain k l => exact congrArg (Ty.plain · l) hk
  | row l _ => cases hk
  | named l name => cases hk

/-- A number type is known from its kind. -/
theorem eq_of_isNumber (h : a.WellFormed) (hn : a.isNumber = true) : a = scalar a.kind := by
  obtain ⟨hl, hk⟩ := isNumber_iff.mp hn
  cases h with
  | plain k l => exact congrArg (Ty.plain k) hl
  | row l _ => cases hk
  | named l name => cases hk

end WellFormed

namespace Below

theorem refl (a : Ty) : a.Below a := .inr (.inl rfl)

theorem trans (hab : a.Below b) (hbc : b.Below c) : a.Below c := by
  rcases hab with hu | rfl | ⟨ha, hb, hr⟩ | ⟨hl, hk⟩
  · exact .inl hu
  · exact hbc
  · rcases hbc with hu | rfl | ⟨-, hc, hr'⟩ | ⟨-, hk⟩
    · exact absurd (isUntyped_iff.mp hu).1 (kind_ne_noType_of_isNumber hb)
    · exact .inr (.inr (.inl ⟨ha, hb, hr⟩))
    · exact .inr (.inr (.inl ⟨ha, hc, Nat.le_trans hr hr'⟩))
    · exact absurd hk (kind_ne_noType_of_isNumber hb)
  · rcases hbc with hu | rfl | ⟨hb, -, -⟩ | ⟨hl', -⟩
    · exact .inl (isUntyped_of_level_zero hk (hl.trans (isUntyped_iff.mp hu).2))
    · exact .inr (.inr (.inr ⟨hl, hk⟩))
    · exact .inl (isUntyped_of_level_zero hk (hl.trans (isNumber_iff.mp hb).1))
    · exact .inr (.inr (.inr ⟨hl.trans hl', hk⟩))

/-- What is below a type without a kind has no kind either. -/
theorem kind_eq (h : a.Below b) (hk : b.kind = .noType) : a.kind = .noType := by
  rcases h with hu | rfl | ⟨-, hb, -⟩ | ⟨-, hk'⟩
  · exact (isUntyped_iff.mp hu).1
  · exact hk
  · exact absurd hk (kind_ne_noType_of_isNumber hb)
  · exact hk'

theorem antisymm (ha : a.WellFormed) (hb : b.WellFormed) (hab : a.Below b) (hba : b.Below a) : a = b := by
  have hkinds : a.kind = .noType → a.level = b.level → a = b := fun hk hl => by
    rw [ha.eq_of_noType hk, hb.eq_of_noType (hba.kind_eq hk), hl]
  rcases hab with hu | rfl | ⟨hna, hnb, hr⟩ | ⟨hl, hk⟩
  · obtain ⟨hk, hl⟩ := isUntyped_iff.mp hu
    rcases hba with hu' | rfl | ⟨-, hna, -⟩ | ⟨hl', -⟩
    · exact hkinds hk (hl.trans (isUntyped_iff.mp hu').2.symm)
    · rfl
    · exact absurd hk (kind_ne_noType_of_isNumber hna)
    · exact hkinds hk hl'.symm
  · rfl
  · rcases hba with hu | rfl | ⟨-, -, hr'⟩ | ⟨-, hk⟩
    · exact absurd (isUntyped_iff.mp hu).1 (kind_ne_noType_of_isNumber hnb)
    · rfl
    · rw [ha.eq_of_isNumber hna, hb.eq_of_isNumber hnb, kind_eq_of_rank_eq hna hnb (Nat.le_antisymm hr hr')]
    · exact absurd hk (kind_ne_noType_of_isNumber hnb)
  · exact hkinds hk hl

/-- What is below one type is a chain. -/
theorem total (hac : a.Below c) (hbc : b.Below c) : a.Below b ∨ b.Below a := by
  rcases hac with hu | rfl | ⟨ha, hc, hr⟩ | ⟨hl, hk⟩
  · exact .inl (.inl hu)
  · exact .inr hbc
  · rcases hbc with hu | rfl | ⟨hb, -, hr'⟩ | ⟨hl, hk⟩
    · exact .inr (.inl hu)
    · exact .inl (.inr (.inr (.inl ⟨ha, hc, hr⟩)))
    · rcases Nat.le_total a.kind.rank b.kind.rank with h | h
      · exact .inl (.inr (.inr (.inl ⟨ha, hb, h⟩)))
      · exact .inr (.inr (.inr (.inl ⟨hb, ha, h⟩)))
    · exact .inr (.inl (isUntyped_of_level_zero hk (hl.trans (isNumber_iff.mp hc).1)))
  · rcases hbc with hu | rfl | ⟨-, hc, -⟩ | ⟨hl', -⟩
    · exact .inr (.inl hu)
    · exact .inl (.inr (.inr (.inr ⟨hl, hk⟩)))
    · exact .inl (.inl (isUntyped_of_level_zero hk (hl.trans (isNumber_iff.mp hc).1)))
    · exact .inl (.inr (.inr (.inr ⟨hl.trans hl'.symm, hk⟩)))

theorem accepts (h : a.Below b) : b.accepts a = true := by
  unfold Ty.accepts
  rcases h with hu | rfl | ⟨ha, hb, hr⟩ | ⟨hl, hk⟩
  · simp [hu]
  · exact accepts_self a
  · obtain ⟨hla, hka⟩ := isNumber_iff.mp ha
    obtain ⟨hlb, hkb⟩ := isNumber_iff.mp hb
    revert hka hkb hr
    cases a.kind <;> cases b.kind <;> simp [Kind.isNumber, Kind.rank, hla, hlb]
  · simp [hl, hk]

end Below

theorem Below.rank_le (h : a.Below b) (ha : a.isNumber = true) : a.kind.rank ≤ b.kind.rank := by
  rcases h with hu | rfl | ⟨-, -, hr⟩ | ⟨-, hk⟩
  · exact absurd (isUntyped_iff.mp hu).1 (kind_ne_noType_of_isNumber ha)
  · exact Nat.le_refl _
  · exact hr
  · exact absurd hk (kind_ne_noType_of_isNumber ha)

/-- The common type of two numbers is the one of the greater rank. -/
theorem promote?_of_isNumber (ha : a.WellFormed) (hb : b.WellFormed) (hna : a.isNumber = true)
    (hnb : b.isNumber = true) : promote? a b = some (if b.kind.rank ≤ a.kind.rank then a else b) := by
  have hua : a.isUntyped = false := by simp [isUntyped, kind_ne_noType_of_isNumber hna]
  have hub : b.isUntyped = false := by simp [isUntyped, kind_ne_noType_of_isNumber hnb]
  simp only [promote?, hua, hub, hna, hnb, Bool.and_self, if_true, Option.some.injEq]
  split
  · exact (ha.eq_of_isNumber hna).symm
  · exact (hb.eq_of_isNumber hnb).symm

/-- Two types have a common one exactly if one of them is below the other. -/
theorem unify?_eq (ha : a.WellFormed) (hb : b.WellFormed) :
    unify? a b = if a.Below b then some b else if b.Below a then some a else none := by
  have hupper : b.Below a → (if a.Below b then some b else if b.Below a then some a else none) = some a := by
    intro hba
    split
    · rename_i hab
      rw [hab.antisymm ha hb hba]
    · rfl
  unfold unify?
  split
  · rename_i hu
    rw [if_pos (.inl hu)]
  · rename_i hua
    split
    · rename_i h
      rcases h with hu | rfl
      · exact (hupper (.inl hu)).symm
      · exact (hupper (.refl a)).symm
    · rename_i h
      obtain ⟨hub, hne⟩ := not_or.mp h
      split
      · rename_i hn
        obtain ⟨hna, hnb⟩ := Bool.and_eq_true_iff.mp hn
        rw [promote?_of_isNumber ha hb hna hnb]
        split
        · rename_i hr
          exact (hupper (.inr (.inr (.inl ⟨hnb, hna, hr⟩)))).symm
        · rename_i hr
          rw [if_pos (.inr (.inr (.inl ⟨hna, hnb, Nat.le_of_not_le hr⟩)))]
      · rename_i hn
        split
        · rename_i hl
          obtain ⟨hl, hk⟩ := hl
          split
          · rename_i hka
            rw [if_pos (.inr (.inr (.inr ⟨hl, hka⟩)))]
          · rename_i hka
            exact (hupper (.inr (.inr (.inr ⟨hl.symm, hk.resolve_left hka⟩)))).symm
        · rename_i hl
          rw [if_neg, if_neg]
          · rintro (hu | rfl | ⟨hb', ha', -⟩ | ⟨hl', hk⟩)
            · exact hub hu
            · exact hne rfl
            · exact hn (Bool.and_eq_true_iff.mpr ⟨ha', hb'⟩)
            · exact hl ⟨hl'.symm, .inr hk⟩
          · rintro (hu | rfl | ⟨ha', hb', -⟩ | ⟨hl', hk⟩)
            · exact hua hu
            · exact hne rfl
            · exact hn (Bool.and_eq_true_iff.mpr ⟨ha', hb'⟩)
            · exact hl ⟨hl', .inl hk⟩

/-! ## The greatest of some types -/

/-- The type is one of these, and all of them are below it. -/
def Greatest (ts : List Ty) (u : Ty) : Prop := u ∈ ts ∧ ∀ t ∈ ts, t.Below u

theorem Greatest.congr (h : ∀ t, t ∈ ts ↔ t ∈ us) : Greatest ts u ↔ Greatest us u := by
  simp only [Greatest, h]

theorem greatest_singleton : Greatest [a] u ↔ a = u := by
  constructor
  · rintro ⟨hmem, -⟩
    exact (List.mem_singleton.mp hmem).symm
  · rintro rfl
    exact ⟨List.mem_singleton_self a, List.forall_mem_singleton.mpr (.refl a)⟩

/-- A type with one below it can stand for both. -/
theorem greatest_of_below (hts : ∀ t ∈ a :: b :: ts, t.WellFormed) (hab : a.Below b) :
    Greatest (a :: b :: ts) u ↔ Greatest (b :: ts) u := by
  obtain ⟨ha, hb, -⟩ := List.forall_mem_cons.mp hts |>.imp_right List.forall_mem_cons.mp
  constructor
  · rintro ⟨hmem, hall⟩
    have hall' := List.forall_mem_cons.mp hall
    refine ⟨?_, hall'.2⟩
    rcases List.mem_cons.mp hmem with rfl | hmem
    · rw [hab.antisymm ha hb (hall'.2 b List.mem_cons_self)]
      exact List.mem_cons_self
    · exact hmem
  · rintro ⟨hmem, hall⟩
    exact ⟨List.mem_cons_of_mem a hmem, List.forall_mem_cons.mpr ⟨hab.trans (hall b List.mem_cons_self), hall⟩⟩

/-- The first two types can be replaced by their common one, without which there is no greatest type. -/
theorem greatest_cons_cons (hts : ∀ t ∈ a :: b :: ts, t.WellFormed) :
    Greatest (a :: b :: ts) u ↔ ∃ c, unify? a b = some c ∧ Greatest (c :: ts) u := by
  obtain ⟨ha, hb, -⟩ := List.forall_mem_cons.mp hts |>.imp_right List.forall_mem_cons.mp
  have hswap : ∀ t, t ∈ a :: b :: ts ↔ t ∈ b :: a :: ts := fun t => (List.Perm.swap b a ts).mem_iff
  rw [unify?_eq ha hb]
  split
  · rename_i hab
    rw [greatest_of_below hts hab]
    simp only [Option.some.injEq, exists_eq_left']
  · rename_i hab
    split
    · rename_i hba
      rw [Greatest.congr hswap, greatest_of_below (fun t ht => hts t ((hswap t).mpr ht)) hba]
      simp only [Option.some.injEq, exists_eq_left']
    · rename_i hba
      refine iff_of_false ?_ nofun
      rintro ⟨-, hall⟩
      exact (Below.total (hall a (by simp)) (hall b (by simp))).elim hab hba

theorem unify?_eq_some_iff (ha : a.WellFormed) (hb : b.WellFormed) : unify? a b = some u ↔ Greatest [a, b] u := by
  have hts : ∀ t ∈ [a, b], t.WellFormed := List.forall_mem_cons.mpr ⟨ha, List.forall_mem_singleton.mpr hb⟩
  rw [greatest_cons_cons hts]
  simp only [greatest_singleton, exists_eq_right]

/-- The common type of two types is one of them. -/
theorem wellFormed_of_unify? (ha : a.WellFormed) (hb : b.WellFormed) (h : unify? a b = some u) : u.WellFormed := by
  obtain ⟨hmem, -⟩ := (unify?_eq_some_iff ha hb).mp h
  rcases List.mem_cons.mp hmem with rfl | hmem
  · exact ha
  · exact List.mem_singleton.mp hmem ▸ hb

theorem unify?_comm (ha : a.WellFormed) (hb : b.WellFormed) : unify? a b = unify? b a := by
  refine Option.ext fun u => ?_
  rw [unify?_eq_some_iff ha hb, unify?_eq_some_iff hb ha]
  exact Greatest.congr fun t => (List.Perm.swap b a []).mem_iff

/-- Three types have a common one if their greatest type exists, in whatever order they are unified. -/
theorem unify?_bind_eq_some_iff (ha : a.WellFormed) (hb : b.WellFormed) (hc : c.WellFormed) :
    (unify? a b).bind (unify? · c) = some u ↔ Greatest [a, b, c] u := by
  have hts : ∀ t ∈ [a, b, c], t.WellFormed :=
    List.forall_mem_cons.mpr ⟨ha, List.forall_mem_cons.mpr ⟨hb, List.forall_mem_singleton.mpr hc⟩⟩
  rw [greatest_cons_cons hts, Option.bind_eq_some_iff]
  refine exists_congr fun d => and_congr_right fun hd => ?_
  exact unify?_eq_some_iff (wellFormed_of_unify? ha hb hd) hc

theorem unify?_assoc (ha : a.WellFormed) (hb : b.WellFormed) (hc : c.WellFormed) :
    (unify? a b).bind (unify? · c) = (unify? b c).bind (unify? a) := by
  have hright : (unify? b c).bind (unify? a) = (unify? b c).bind (unify? · a) :=
    Option.bind_congr fun d hd => unify?_comm ha (wellFormed_of_unify? hb hc hd)
  refine Option.ext fun u => ?_
  rw [hright, unify?_bind_eq_some_iff ha hb hc, unify?_bind_eq_some_iff hb hc ha]
  exact Greatest.congr fun t => (@List.perm_append_comm Ty [a] [b, c]).mem_iff

theorem unify?_self (a : Ty) : unify? a a = some a := by simp [unify?]

theorem untyped_unify? (a : Ty) : unify? untyped a = some a := rfl

theorem unify?_untyped (ha : a.WellFormed) : unify? a untyped = some a :=
  (unify?_comm ha (.plain .noType 0)).trans (untyped_unify? a)

/-- Values of both types may be stored in slots of their common one. -/
theorem accepts_of_unify? (ha : a.WellFormed) (hb : b.WellFormed) (h : unify? a b = some u) :
    u.accepts a = true ∧ u.accepts b = true := by
  obtain ⟨-, hall⟩ := (unify?_eq_some_iff ha hb).mp h
  exact ⟨(hall a (by simp)).accepts, (hall b (by simp)).accepts⟩

end Ty

/-! ## Conversions to a type above -/

namespace Value

mutual

/-- Whether the nulls inside a value, at any depth of collections, may be stored at their places in a slot. -/
def nullsFit (t : Ty) : Value → Bool
  | .null u => t.accepts u
  | .collection _ items => nullsFitAll (t.withLevel (t.level - 1)) items
  | _ => true

/-- Whether the nulls inside some values may be stored in slots of one type. -/
def nullsFitAll (t : Ty) : List Value → Bool
  | [] => true
  | v :: vs => nullsFit t v && nullsFitAll t vs

end

variable {t : Ty} {v : Value}

theorem coerceAll_ok_iff (vs : List Value) : (∃ ws, coerceAll vs t = .ok ws) ↔ ∀ v ∈ vs, ∃ w, v.coerce t = .ok w := by
  induction vs with
  | nil => exact iff_of_true ⟨[], rfl⟩ nofun
  | cons v vs ih =>
    rw [List.forall_mem_cons, ← ih]
    simp only [coerceAll]
    constructor
    · rintro ⟨ws, h⟩
      cases hv : v.coerce t with
      | error c => rw [hv] at h; cases h
      | ok w =>
        cases hvs : coerceAll vs t with
        | error c => rw [hv, hvs] at h; cases h
        | ok ws' => exact ⟨⟨w, rfl⟩, ws', rfl⟩
    · rintro ⟨⟨w, hv⟩, ws, hvs⟩
      exact ⟨w :: ws, by rw [hv, hvs]⟩

theorem coerce_null_ok_iff (u : Ty) : (∃ w, (Value.null u).coerce t = .ok w) ↔ t.accepts u = true := by
  constructor
  · rintro ⟨w, hw⟩
    cases ha : t.accepts u with
    | true => rfl
    | false =>
      rw [coerce_of_not_accepts (.null u) ha] at hw
      cases hw
  · intro ha
    simp only [coerce]
    split
    · exact ⟨_, rfl⟩
    · exact ⟨.null t, by simp [type, ha, convert]⟩

mutual

/-- A uniform value without a kind converts to a type with one if its nulls fit: the collections inside it hold
nothing but such values. -/
theorem coerce_ok_iff_nullsFit (v : Value) (t : Ty) (ht : t.kind ≠ .noType) (hv : v.Uniform)
    (htype : v.isNull = true ∨ v.type = .plain .noType t.level) :
    (∃ w, v.coerce t = .ok w) ↔ v.nullsFit t = true := by
  have hu : t.isUntyped = false := by simp [Ty.isUntyped, ht]
  cases v with
  | null u => exact coerce_null_ok_iff u
  | collection e items =>
    have htype : e.arrayOf = .plain .noType t.level := htype.resolve_left nofun
    have hkind : e.arrayOf.kind = .noType := htype ▸ rfl
    have hlevel : e.arrayOf.level = t.level := htype ▸ rfl
    have hne : e.arrayOf ≠ t := fun he => ht (he ▸ hkind)
    have haccepts : t.accepts e.arrayOf = true := Ty.Below.accepts (.inr (.inr (.inr ⟨hlevel, hkind⟩)))
    rw [Ty.level_arrayOf] at hlevel
    have helement : t.element? = some (t.withLevel (t.level - 1)) := if_pos (by omega)
    have hitems : ∀ w ∈ items, w.isNull = true ∨ w.type = .plain .noType (t.level - 1) := by
      have he : e = .plain .noType (t.level - 1) := by
        rw [← Ty.arrayOf_inj, htype, ← hlevel]
        rfl
      cases hv with
      | collection hc _ => exact fun w hw => he ▸ hc w hw
      | single _ hc => exact absurd rfl (hc e items)
    have hall := coerceAll_ok_iff_nullsFit items (t.withLevel (t.level - 1)) (by simpa using ht) hv.items
      (by simpa using hitems)
    rw [nullsFit, ← hall]
    simp only [coerce, hu, haccepts, helement, if_neg hne, Bool.not_true, Bool.false_eq_true, if_false]
    constructor
    · rintro ⟨w, hw⟩
      split at hw
      · exact ⟨_, ‹_›⟩
      · cases hw
    · rintro ⟨ws, hws⟩
      exact ⟨_, by rw [hws]⟩
  | _ => exact absurd (congrArg Ty.kind (htype.resolve_left nofun)) nofun

theorem coerceAll_ok_iff_nullsFit (vs : List Value) (t : Ty) (ht : t.kind ≠ .noType) (hvs : ∀ v ∈ vs, v.Uniform)
    (htypes : ∀ v ∈ vs, v.isNull = true ∨ v.type = .plain .noType t.level) :
    (∃ ws, coerceAll vs t = .ok ws) ↔ nullsFitAll t vs = true := by
  cases vs with
  | nil => exact iff_of_true ⟨[], rfl⟩ rfl
  | cons v vs =>
    obtain ⟨hv, hvs⟩ := List.forall_mem_cons.mp hvs
    obtain ⟨htype, htypes⟩ := List.forall_mem_cons.mp htypes
    rw [coerceAll_ok_iff, List.forall_mem_cons, ← coerceAll_ok_iff, nullsFitAll, Bool.and_eq_true,
      coerce_ok_iff_nullsFit v t ht hv htype, coerceAll_ok_iff_nullsFit vs t ht hvs htypes]

end

/-- A number converts to a number type above its own. -/
theorem coerce_number_ok (hn : v.type.isNumber = true) (hb : v.type.Below t) (ht : t.isNumber = true) :
    ∃ w, v.coerce t = .ok w := by
  have haccepts := hb.accepts
  have hu : t.isUntyped = false := by simp [Ty.isUntyped, Ty.kind_ne_noType_of_isNumber ht]
  cases v with
  | null u => exact (coerce_null_ok_iff u).mpr haccepts
  | integer n =>
    simp only [coerce, hu, haccepts, convert, Bool.not_true, Bool.false_eq_true, if_false]
    split
    · exact ⟨_, rfl⟩
    · split <;> exact ⟨_, rfl⟩
  | numeric x =>
    have hs : t.isScalar .integer = false := by
      refine Bool.eq_false_iff.mpr fun hs => ?_
      have hrank := hb.rank_le hn
      rw [(Ty.isScalar_iff.mp hs).2] at hrank
      exact absurd hrank (Nat.not_succ_le_self 1)
    simp only [coerce, hu, haccepts, convert, hs, Bool.not_true, Bool.false_eq_true, if_false]
    split <;> exact ⟨_, rfl⟩
  | imaginary z => exact ⟨_, by simp [coerce, hu, haccepts, convert]; rfl⟩
  | collection e items => simp [type, Ty.isNumber] at hn
  | _ => simp [type, Ty.isNumber, Ty.kind, Kind.isNumber] at hn

/-- A uniform value converts to a type above its own, unless it has no kind, the type has one, and a null inside
it does not fit. -/
theorem coerce_of_below (hv : v.type.WellFormed) (ht : t.WellFormed) (hb : v.type.Below t) (huniform : v.Uniform) :
    (∃ w, v.coerce t = .ok w) ↔ (v.type.kind = .noType → t.kind ≠ .noType → v.nullsFit t = true) := by
  have hself : v.type = t → ∃ w, v.coerce t = .ok w := fun he => ⟨v, he ▸ coerce_self v⟩
  by_cases hk : v.type.kind = .noType
  · have hplain : v.isNull = true ∨ v.type = .plain .noType t.level := by
      cases hn : v.isNull with
      | true => exact .inl rfl
      | false =>
        refine .inr ?_
        rcases hb with hu | he | ⟨hn', -, -⟩ | ⟨hl, -⟩
        · rw [isUntyped_type hn] at hu
          cases hu
        · exact he ▸ hv.eq_of_noType hk
        · exact absurd hk (Ty.kind_ne_noType_of_isNumber hn')
        · exact hl ▸ hv.eq_of_noType hk
    by_cases hkt : t.kind = .noType
    · refine iff_of_true ?_ fun _ hne => absurd hkt hne
      rcases hplain with hn | htype
      · obtain ⟨u, rfl⟩ := isNull_iff.mp hn
        exact (coerce_null_ok_iff u).mpr hb.accepts
      · exact hself (htype.trans (ht.eq_of_noType hkt).symm)
    · rw [coerce_ok_iff_nullsFit v t hkt huniform hplain]
      exact ⟨fun h _ _ => h, fun h => h hk hkt⟩
  · refine iff_of_true ?_ fun hk' => absurd hk' hk
    rcases hb with hu | he | ⟨hn, ht', hr⟩ | ⟨-, hk'⟩
    · exact absurd (Ty.isUntyped_iff.mp hu).1 hk
    · exact hself he
    · exact coerce_number_ok hn (.inr (.inr (.inl ⟨hn, ht', hr⟩))) ht'
    · exact absurd hk' hk

end Value

/-! ## Collections of some values -/

namespace Collection

variable {vs ws : List Value} {held e : Ty}

/-- The common type of some values is the greatest of their types. -/
theorem unifyAll_eq_ok_iff (h : ∀ t ∈ held :: vs.map Value.type, t.WellFormed) :
    unifyAll held vs = .ok e ↔ Ty.Greatest (held :: vs.map Value.type) e := by
  induction vs generalizing held with
  | nil => rw [unifyAll, List.map_nil, Ty.greatest_singleton, Except.ok.injEq]
  | cons v vs ih =>
    rw [List.map_cons, Ty.greatest_cons_cons h]
    obtain ⟨hheld, hrest⟩ := List.forall_mem_cons.mp h
    obtain ⟨hv, hvs⟩ := List.forall_mem_cons.mp hrest
    simp only [unifyAll]
    cases hu : Ty.unify? held v.type with
    | none => simp
    | some u =>
      have hu' : u.WellFormed := Ty.wellFormed_of_unify? hheld hv hu
      simp only [Option.some.injEq, exists_eq_left']
      exact ih (List.forall_mem_cons.mpr ⟨hu', hvs⟩)

/-- There is a collection of some values if they have a common type to which all of them convert. -/
theorem ofValues_element_iff : (∃ c, ofValues vs = .ok c ∧ c.element = e) ↔
    unifyAll Ty.untyped vs = .ok e ∧ ∀ v ∈ vs, ∃ w, v.coerce e = .ok w := by
  rw [← Value.coerceAll_ok_iff]
  unfold ofValues
  cases unifyAll Ty.untyped vs with
  | error x => exact iff_of_false nofun nofun
  | ok u =>
    constructor
    · rintro ⟨c, hc, rfl⟩
      obtain ⟨items, hitems, rfl⟩ := Check.ok_of_map hc
      exact ⟨rfl, items, hitems⟩
    · rintro ⟨hu, items, hitems⟩
      obtain rfl := Except.ok.inj hu
      exact ⟨⟨u, items⟩, by simp only [hitems, Except.map], rfl⟩

end Collection

/-- The check of a literal finds the common type of its elements. -/
theorem Expr.elementIn_eq_ok_iff {env : Env} {es : List Expr} {vs : List Value}
    (h : Expr.typesIn env es = .ok (vs.map Value.type)) (line : Nat) (held u : Ty) :
    Expr.elementIn env line held es = .ok u ↔ Collection.unifyAll held vs = .ok u := by
  induction es generalizing vs held with
  | nil =>
    obtain rfl : vs = [] := by simpa [Expr.typesIn, eq_comm] using h
    simp only [Expr.elementIn, Collection.unifyAll, Except.ok.injEq]
  | cons e es ih =>
    obtain ⟨t, ht, h⟩ := Check.ok_of_bind h
    obtain ⟨ts, hts, h⟩ := Check.ok_of_bind h
    cases vs with
    | nil => cases h
    | cons v vs =>
      obtain ⟨rfl, rfl⟩ : t = v.type ∧ ts = vs.map Value.type := by simpa using Except.ok.inj h
      simp only [Expr.elementIn, ht, Collection.unifyAll, bind, Except.bind, Check.element]
      cases Ty.unify? held v.type with
      | none => exact iff_of_false (fun h => by cases h) fun h => by cases h
      | some u' => exact ih hts u'

theorem Expr.typeIn_collection {env : Env} {line : Nat} {es : List Expr} {vs : List Value} {t : Ty}
    (h : Expr.typesIn env es = .ok (vs.map Value.type)) :
    (Expr.collection line es).typeIn env = .ok t ↔
      ∃ e, Collection.unifyAll Ty.untyped vs = .ok e ∧ t = e.arrayOf := by
  simp only [← Expr.elementIn_eq_ok_iff h line]
  rw [Expr.typeIn]
  constructor
  · intro ht
    obtain ⟨e, he, ht⟩ := Check.ok_of_bind ht
    exact ⟨e, he, (Except.ok.inj ht).symm⟩
  · rintro ⟨e, he, rfl⟩
    rw [he]
    rfl

namespace Collection

/-- Well-formed types have a join, the untyped type being below all others. So the order of some values does not
matter for the element type of their collection, which is the one that the check of a literal finds. If the check
finds one, the values convert to it exactly if the nulls fit that are held in collections without a kind. -/
theorem order_of_elements_exactly (a b c : Ty) (vs : List Value) :
    (a.WellFormed → b.WellFormed → c.WellFormed →
      Ty.unify? a b = Ty.unify? b a ∧
      (Ty.unify? a b).bind (Ty.unify? · c) = (Ty.unify? b c).bind (Ty.unify? a) ∧
      Ty.unify? a a = some a ∧ Ty.unify? Ty.untyped a = some a ∧ Ty.unify? a Ty.untyped = some a ∧
      ∀ u, Ty.unify? a b = some u → u.accepts a = true ∧ u.accepts b = true) ∧
    ((∀ v ∈ vs, v.type.WellFormed) →
      (∀ {ws : List Value}, ws.Perm vs → ∀ e,
        (∃ c, ofValues ws = .ok c ∧ c.element = e) ↔ ∃ c, ofValues vs = .ok c ∧ c.element = e) ∧
      (∀ {env : Env} {line : Nat} {es : List Expr}, Expr.typesIn env es = .ok (vs.map Value.type) →
        (∀ t, (Expr.collection line es).typeIn env = .ok t ↔ ∃ e, unifyAll Ty.untyped vs = .ok e ∧ t = e.arrayOf) ∧
        ∀ c, ofValues vs = .ok c → (Expr.collection line es).typeIn env = .ok c.type) ∧
      ((∀ v ∈ vs, v.Uniform) → ∀ e, unifyAll Ty.untyped vs = .ok e →
        ((∃ c, ofValues vs = .ok c ∧ c.element = e) ↔
          ∀ v ∈ vs, v.type.kind = .noType → e.kind ≠ .noType → v.nullsFit e = true))) := by
  refine ⟨fun ha hb hc => ?_, fun hvs => ?_⟩
  · exact ⟨Ty.unify?_comm ha hb, Ty.unify?_assoc ha hb hc, Ty.unify?_self a, Ty.untyped_unify? a, Ty.unify?_untyped ha,
      fun u => Ty.accepts_of_unify? ha hb⟩
  have htypes : ∀ t ∈ Ty.untyped :: vs.map Value.type, t.WellFormed :=
    List.forall_mem_cons.mpr ⟨.plain .noType 0, List.forall_mem_map.mpr hvs⟩
  refine ⟨fun {ws} hperm e => ?_, fun {env line es} hes => ⟨fun t => Expr.typeIn_collection hes, fun c hc => ?_⟩,
    fun huniform e he => ?_⟩
  · have hmem : ∀ t, t ∈ Ty.untyped :: ws.map Value.type ↔ t ∈ Ty.untyped :: vs.map Value.type := fun t =>
      ((hperm.map Value.type).cons Ty.untyped).mem_iff
    have htypes' : ∀ t ∈ Ty.untyped :: ws.map Value.type, t.WellFormed := fun t ht => htypes t ((hmem t).mp ht)
    rw [ofValues_element_iff, ofValues_element_iff, unifyAll_eq_ok_iff htypes', unifyAll_eq_ok_iff htypes,
      Ty.Greatest.congr hmem]
    simp only [hperm.mem_iff]
  · obtain ⟨he, -⟩ := ofValues_element_iff.mp ⟨c, hc, rfl⟩
    exact (Expr.typeIn_collection hes).mpr ⟨c.element, he, rfl⟩
  · obtain ⟨hmem, hall⟩ := (unifyAll_eq_ok_iff htypes).mp he
    rw [ofValues_element_iff, and_iff_right he]
    refine forall₂_congr fun v hv => Value.coerce_of_below (hvs v hv) (htypes e hmem) ?_ (huniform v hv)
    exact hall v.type (List.mem_cons_of_mem _ (List.mem_map_of_mem hv))

/-- A collection of untyped nulls beside one of literals: it becomes a collection of literals, too. -/
theorem order_of_elements_exactly_nulls :
    let vs := [Value.collection Ty.untyped [.null Ty.untyped], .collection Ty.literal [.literal "a"]]
    (∀ v ∈ vs, v.type.WellFormed) ∧ (∀ v ∈ vs, v.Uniform) ∧ unifyAll Ty.untyped vs = .ok (.plain .literal 1) ∧
      Ty.unify? (.plain .literal 1) (.plain .noType 1) = some (.plain .literal 1) ∧
      (∃ c, ofValues vs = .ok c ∧ c.element = .plain .literal 1) ∧
      ∃ c, ofValues vs.reverse = .ok c ∧ c.element = .plain .literal 1 := by
  intro vs
  have hwell : ∀ v ∈ vs, v.type.WellFormed :=
    List.forall_mem_cons.mpr ⟨.plain .noType 1, List.forall_mem_singleton.mpr (.plain .literal 1)⟩
  have hnull : (Value.collection Ty.untyped [.null Ty.untyped]).Uniform :=
    .collection (List.forall_mem_singleton.mpr (.inl rfl)) (List.forall_mem_singleton.mpr (.single nofun nofun))
  have hliteral : (Value.collection Ty.literal [.literal "a"]).Uniform :=
    .collection (List.forall_mem_singleton.mpr (.inr rfl)) (List.forall_mem_singleton.mpr (.single nofun nofun))
  have huniform : ∀ v ∈ vs, v.Uniform := List.forall_mem_cons.mpr ⟨hnull, List.forall_mem_singleton.mpr hliteral⟩
  have hunify : unifyAll Ty.untyped vs = .ok (.plain .literal 1) := rfl
  obtain ⟨hjoin, hcollections⟩ := order_of_elements_exactly (.plain .noType 1) (.plain .literal 1) Ty.untyped vs
  obtain ⟨hcomm, -⟩ := hjoin (.plain .noType 1) (.plain .literal 1) (.plain .noType 0)
  obtain ⟨horder, -, hexactly⟩ := hcollections hwell
  have hfit : ∀ v ∈ vs, v.type.kind = .noType → (Ty.plain .literal 1).kind ≠ .noType →
      v.nullsFit (.plain .literal 1) = true :=
    List.forall_mem_cons.mpr ⟨fun _ _ => rfl, List.forall_mem_singleton.mpr nofun⟩
  have hsome := (hexactly huniform _ hunify).mpr hfit
  exact ⟨hwell, huniform, hunify, hcomm.symm, hsome, (horder vs.reverse_perm _).mpr hsome⟩

/-- With a null integer in the collection of untyped nulls the types still have a common one, but the null does not
convert. -/
theorem null_of_other_kind_strays :
    let vs := [Value.collection Ty.untyped [.null Ty.integer], .collection Ty.literal [.literal "a"]]
    (∀ v ∈ vs, v.type.WellFormed) ∧ (∀ v ∈ vs, v.Uniform) ∧ unifyAll Ty.untyped vs = .ok (.plain .literal 1) ∧
      ∀ c, ofValues vs ≠ .ok c := by
  have hnull : (Value.collection Ty.untyped [.null Ty.integer]).Uniform :=
    .collection (List.forall_mem_singleton.mpr (.inl rfl)) (List.forall_mem_singleton.mpr (.single nofun nofun))
  have hliteral : (Value.collection Ty.literal [.literal "a"]).Uniform :=
    .collection (List.forall_mem_singleton.mpr (.inr rfl)) (List.forall_mem_singleton.mpr (.single nofun nofun))
  refine ⟨?_, ?_, rfl, fun c => nofun⟩
  · exact List.forall_mem_cons.mpr ⟨.plain .noType 1, List.forall_mem_singleton.mpr (.plain .literal 1)⟩
  · exact List.forall_mem_cons.mpr ⟨hnull, List.forall_mem_singleton.mpr hliteral⟩

end Collection
end Crunch
