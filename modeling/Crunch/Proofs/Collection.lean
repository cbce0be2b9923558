import Crunch.Collection
import Crunch.Proofs.Coerce

/-!
# Crunch.Proofs.Collection

Whether the elements of a collection have the type that it declares for them.

* `Collection.Uniform`: every element is a null or has the declared element type.
* `Collection.Change`: one operation on a collection; a failed one may change the element type.
* `Collection.Obtained`: the collections that operations lead to, when all of them are allowed ones.
* `Collection.Change.Loosens`: the operations that break uniformity. They store a value while the
  element type stays one that values never have exactly, or they leave another element type behind
  to elements that stay.
* `Collection.uniform_exactly`: from uniform collections, these and no others break it.
-/

namespace Crunch
namespace Collection

/-- Every element is a null or has the declared element type. -/
def Uniform (c : Collection) : Prop := ∀ v ∈ c.items, v.isNull = true ∨ v.type = c.element

/-- An operation on a collection. -/
inductive Change where
  | insert (i : Int64) (v : Value)
  | splice (i : Int64) (source : Collection)
  | put (i : Int64) (v : Value)
  | remove (i : Int64)
  | retype (e : Ty)

namespace Change

/-- The collection after an operation, and whether the operation failed. -/
def apply (c : Collection) : Change → Collection × Except Fault.Cause Unit
  | .insert i v => c.insert i v
  | .splice i source => c.splice i source
  | .put i v => ((c.put i v).1, (c.put i v).2.map fun _ => ())
  | .remove i => ((c.remove i).1, (c.remove i).2.map fun _ => ())
  | .retype e =>
    match c.retype e with
    | .ok c' => (c', .ok ())
    | .error x => (c, .error x)

/-- The values that an operation puts into the collection. -/
def stored (c : Collection) : Change → List Value
  | .insert _ v | .put _ v => [v]
  | .splice _ source => source.items
  | .remove _ => []
  | .retype _ => c.items

/-- The elements that an operation does not touch. -/
def kept (c : Collection) : Change → List Value
  | .insert _ _ | .splice _ _ => c.items
  | .put i _ | .remove i => c.items.eraseIdx i.toInt.toNat
  | .retype _ => []

/-- Whether an operation leaves elements that the element type does not describe: elements that
stay while the element type changes, or new ones of a type that values never have exactly. -/
def Loosens (c : Collection) (op : Change) : Prop :=
  ((op.apply c).1.element ≠ c.element ∧ ∃ v ∈ op.kept c, v.isNull = false) ∨
  ((op.apply c).2 = .ok () ∧ (op.apply c).1.element.isExact = false ∧ ∃ v ∈ op.stored c, v.isNull = false)

end Change

/-- The collections that allowed operations lead to. Collections that are spliced in are obtained in
the same way. -/
inductive Obtained (allowed : Collection → Change → Prop) : Collection → Prop where
  | empty (e : Ty) : Obtained allowed ⟨e, []⟩
  | ofValues {vs : List Value} {c : Collection} : ofValues vs = .ok c → Obtained allowed c
  | change {c : Collection} {op : Change} : Obtained allowed c →
      (∀ i source, op = .splice i source → Obtained allowed source) → allowed c op →
      Obtained allowed (op.apply c).1

/-! ## Fitting values into an element type -/

/-- The element type once a value of type `t` that is no null has been stored. -/
def adoptedType (e t : Ty) : Ty := if e.kind = .noType ∧ t.level = e.level then t else e

theorem adopted_of_null {e : Ty} {v : Value} (h : v.isNull = true) : adopted e v = e := by
  simp [adopted, h]

theorem adopted_of_value {e : Ty} {v : Value} (h : v.isNull = false) :
    adopted e v = adoptedType e v.type := by
  simp [adopted, adoptedType, h]

theorem adoptedType_idem (e t : Ty) : adoptedType (adoptedType e t) t = adoptedType e t := by
  simp only [adoptedType]
  split
  · simp
  · rfl

/-- A value that changes the element type fits it. -/
theorem fit_error {e e' : Ty} {v : Value} {x : Fault.Cause} (h : fit e v = (e', .error x)) : e' = e := by
  simp only [fit, Prod.mk.injEq] at h
  obtain ⟨rfl, hc⟩ := h
  simp only [adopted] at hc ⊢
  split
  · rename_i ha
    rw [if_pos ha, Value.coerce_self] at hc
    cases hc
  · rfl

/-- Values of one type change the element type at most once, and those stored are described by the
element type in the end, if values can have it at all. -/
theorem fitAll_of_type {t : Ty} : ∀ {vs : List Value} {e e' : Ty} {r : Except Fault.Cause (List Value)},
    (∀ v ∈ vs, v.isNull = true ∨ v.type = t) → fitAll e vs = (e', r) →
      (e' = e ∨ e' = adoptedType e t) ∧
      ∀ ws, r = .ok ws → ((∃ v ∈ vs, v.isNull = false) ↔ ∃ w ∈ ws, w.isNull = false) ∧
        ∀ w ∈ ws, w.isNull = true ∨ (e'.isExact = true → w.type = e') := by
  intro vs
  induction vs with
  | nil =>
    intro e e' r _ h
    cases h
    refine ⟨.inl rfl, fun ws hws => ?_⟩
    cases hws
    simp
  | cons v vs ih =>
    intro e e' r hall h
    have hrest : ∀ v ∈ vs, v.isNull = true ∨ v.type = t := fun x hx => hall x (List.mem_cons_of_mem _ hx)
    have hfirst : adopted e v = e ∨ adopted e v = adoptedType e t := by
      rcases hall v List.mem_cons_self with hn | ht
      · exact .inl (adopted_of_null hn)
      · cases hv : v.isNull with
        | true => exact .inl (adopted_of_null hv)
        | false => exact .inr (by rw [adopted_of_value hv, ht])
    simp only [fitAll] at h
    split at h
    · rename_i e₁ x hfit
      cases h
      simp only [fit, Prod.mk.injEq] at hfit
      exact ⟨hfit.1 ▸ hfirst, fun ws hws => by cases hws⟩
    · rename_i e₁ w hfit
      simp only [fit, Prod.mk.injEq] at hfit
      obtain ⟨rfl, hw⟩ := hfit
      have hlast : ∀ {e₂ r₂}, fitAll (adopted e v) vs = (e₂, r₂) →
          (e₂ = e ∨ e₂ = adoptedType e t) ∧ (v.isNull = false → e₂ = adopted e v) := by
        intro e₂ r₂ h₂
        have h₃ := (ih hrest h₂).1
        refine ⟨?_, fun hv => ?_⟩
        · rcases hfirst with hf | hf <;> rw [hf] at h₃
          · exact h₃
          · rw [adoptedType_idem, or_self] at h₃
            exact .inr h₃
        · have ht : v.type = t := by
            rcases hall v List.mem_cons_self with hn | ht
            · rw [hn] at hv; cases hv
            · exact ht
          rw [adopted_of_value hv, ht] at h₃ ⊢
          rw [adoptedType_idem, or_self] at h₃
          exact h₃
      split at h
      · rename_i e₂ x h₂
        cases h
        exact ⟨(hlast h₂).1, fun ws hws => by cases hws⟩
      · rename_i e₂ ws h₂
        cases h
        refine ⟨(hlast h₂).1, fun ws' hws => ?_⟩
        cases hws
        obtain ⟨hsome, hdesc⟩ := (ih hrest h₂).2 ws rfl
        have hnull := Value.isNull_of_coerce hw
        refine ⟨by simp only [List.mem_cons, exists_eq_or_imp, hsome, hnull], fun w' hw' => ?_⟩
        rcases List.mem_cons.mp hw' with rfl | hmem
        · cases hv : v.isNull with
          | true => exact .inl (hnull.trans hv)
          | false =>
            refine .inr fun hexact => ?_
            rw [(hlast h₂).2 hv] at hexact ⊢
            exact Value.type_of_coerce hw hexact
        · exact hdesc w' hmem

/-! ## Elements that stay and elements that are stored -/

/-- Elements that stay and stored ones are described by an element type together, unless the type is
a new one for the former or one that the latter cannot have. -/
theorem uniform_parts {kept : List Value} {e : Ty} (e' : Ty) (ws : List Value)
    (hk : ∀ v ∈ kept, v.isNull = true ∨ v.type = e)
    (hw : ∀ w ∈ ws, w.isNull = true ∨ (e'.isExact = true → w.type = e')) :
    (∀ v ∈ kept ++ ws, v.isNull = true ∨ v.type = e') ↔
      ¬((e' ≠ e ∧ ∃ v ∈ kept, v.isNull = false) ∨ (e'.isExact = false ∧ ∃ w ∈ ws, w.isNull = false)) := by
  constructor
  · rintro hall (⟨hne, v, hv, hn⟩ | ⟨hx, w, hmem, hn⟩)
    · have h₁ := (hk v hv).resolve_left (by simp [hn])
      have h₂ := (hall v (List.mem_append_left _ hv)).resolve_left (by simp [hn])
      exact hne (h₂.symm.trans h₁)
    · have h₁ := (hall w (List.mem_append_right _ hmem)).resolve_left (by simp [hn])
      exact Value.type_ne_of_not_isExact hn hx h₁
  · intro hnot v hv
    cases hn : v.isNull with
    | true => exact .inl rfl
    | false =>
      refine .inr ?_
      rcases List.mem_append.mp hv with hmem | hmem
      · have he : e' = e := Decidable.byContradiction fun hne => hnot (.inl ⟨hne, v, hmem, hn⟩)
        rw [he]
        exact (hk v hmem).resolve_left (by simp [hn])
      · refine (hw v hmem).resolve_left (by simp [hn]) ?_
        cases hx : e'.isExact with
        | true => rfl
        | false => exact absurd (.inr ⟨hx, v, hmem, hn⟩) hnot

theorem uniform_congr {c : Collection} {vs : List Value} (h : ∀ v, v ∈ c.items ↔ v ∈ vs) :
    c.Uniform ↔ ∀ v ∈ vs, v.isNull = true ∨ v.type = c.element := by
  simp only [Uniform, h]

/-- The outcome of putting values of one type in front of a position. -/
theorem insertAll_uniform {c : Collection} {vs : List Value} {t : Ty} (hc : c.Uniform)
    (hvs : ∀ v ∈ vs, v.isNull = true ∨ v.type = t) (i : Int64) :
    (c.insertAll i vs).1.Uniform ↔
      ¬(((c.insertAll i vs).1.element ≠ c.element ∧ ∃ v ∈ c.items, v.isNull = false) ∨
        ((c.insertAll i vs).2 = .ok () ∧ (c.insertAll i vs).1.element.isExact = false ∧
          ∃ v ∈ vs, v.isNull = false)) := by
  cases hg : gapPosition i c.size with
  | error x => simpa [insertAll, hg] using hc
  | ok p =>
    cases hfit : fitAll c.element vs with
    | mk e r =>
      cases r with
      | error x =>
        simp only [insertAll, hg, hfit]
        simpa [Uniform] using uniform_parts e [] hc (by simp)
      | ok ws =>
        simp only [insertAll, hg, hfit]
        obtain ⟨hsome, hdesc⟩ := (fitAll_of_type hvs hfit).2 ws rfl
        have hmem : ∀ v, v ∈ c.items.take p ++ ws ++ c.items.drop p ↔ v ∈ c.items ++ ws := by
          intro v
          have hsplit : v ∈ c.items ↔ v ∈ c.items.take p ∨ v ∈ c.items.drop p := by
            rw [← List.mem_append, List.take_append_drop]
          simp only [List.mem_append, hsplit]
          exact or_right_comm
        rw [uniform_congr hmem]
        simpa only [hsome, true_and] using uniform_parts e ws hc hdesc

/-- A value that is put in the place of another one. -/
theorem put_uniform {c : Collection} (hc : c.Uniform) (i : Int64) (v : Value) :
    ((Change.put i v).apply c).1.Uniform ↔ ¬(Change.put i v).Loosens c := by
  have hkept : ∀ w ∈ c.items.eraseIdx i.toInt.toNat, w.isNull = true ∨ w.type = c.element :=
    fun w hw => hc w (List.mem_of_mem_eraseIdx hw)
  simp only [Change.Loosens, Change.apply, Change.kept, Change.stored, put]
  cases hp : elementPosition i c.size with
  | error x => simpa [Except.map] using hc
  | ok p =>
    cases hfit : fit c.element v with
    | mk e r =>
      cases r with
      | error x =>
        rw [fit_error hfit]
        simpa [Except.map] using hc
      | ok w =>
        simp only [elementPosition] at hp
        split at hp
        · rename_i hrange
          cases hp
          have hlt : i.toInt.toNat < c.items.length := by
            have := hrange.2
            simp only [size] at this
            omega
          have hmem : ∀ x, x ∈ c.items.set i.toInt.toNat w ↔ x ∈ c.items.eraseIdx i.toInt.toNat ++ [w] := by
            intro x
            rw [List.set_eq_take_append_cons_drop, if_pos hlt, List.eraseIdx_eq_take_drop_succ]
            simp only [List.mem_append, List.mem_cons, List.not_mem_nil, or_false]
            exact ⟨fun h => h.elim (.inl ∘ .inl) (·.elim .inr (.inl ∘ .inr)),
              fun h => h.elim (·.elim .inl (.inr ∘ .inr)) (.inr ∘ .inl)⟩
          simp only [fit, Prod.mk.injEq] at hfit
          obtain ⟨rfl, hw⟩ := hfit
          rw [uniform_congr hmem]
          have := uniform_parts (adopted c.element v) [w] hkept fun x hx => .inr fun hexact => by
            rw [List.mem_singleton.mp hx]
            exact Value.type_of_coerce hw hexact
          simpa [Except.map, Value.isNull_of_coerce hw] using this
        · cases hp

theorem remove_uniform {c : Collection} (hc : c.Uniform) (i : Int64) :
    ((Change.remove i).apply c).1.Uniform ∧ ¬(Change.remove i).Loosens c := by
  have helement : ((Change.remove i).apply c).1.element = c.element := by
    simp only [Change.apply, remove]
    split <;> rfl
  refine ⟨?_, by simp [Change.Loosens, helement, Change.stored]⟩
  intro v hv
  rw [helement]
  refine hc v ?_
  simp only [Change.apply, remove] at hv
  split at hv
  · exact hv
  · exact List.mem_of_mem_eraseIdx hv

/-- The values of a conversion of all elements. -/
theorem mem_of_coerceAll {t : Ty} : ∀ {vs ws : List Value}, Value.coerceAll vs t = .ok ws →
    ((∃ v ∈ vs, v.isNull = false) ↔ ∃ w ∈ ws, w.isNull = false) ∧
    ∀ w ∈ ws, ∃ v ∈ vs, v.coerce t = .ok w := by
  intro vs
  induction vs with
  | nil =>
    intro ws h
    cases h
    simp
  | cons v vs ih =>
    intro ws h
    simp only [Value.coerceAll] at h
    cases hv : v.coerce t with
    | error x => rw [hv] at h; cases h
    | ok w =>
      rw [hv] at h
      cases hvs : Value.coerceAll vs t with
      | error x => rw [hvs] at h; cases h
      | ok ws' =>
        rw [hvs] at h
        cases h
        obtain ⟨hsome, hmem⟩ := ih hvs
        refine ⟨by simp only [List.mem_cons, exists_eq_or_imp, hsome, Value.isNull_of_coerce hv], ?_⟩
        intro x hx
        rcases List.mem_cons.mp hx with rfl | hx
        · exact ⟨v, List.mem_cons_self, hv⟩
        · obtain ⟨y, hy, hxy⟩ := hmem x hx
          exact ⟨y, List.mem_cons_of_mem _ hy, hxy⟩

theorem retype_uniform {c : Collection} (hc : c.Uniform) (e : Ty) :
    ((Change.retype e).apply c).1.Uniform ↔ ¬(Change.retype e).Loosens c := by
  simp only [Change.Loosens, Change.apply, Change.kept, Change.stored, retype]
  cases hall : Value.coerceAll c.items e with
  | error x => simpa [Except.map] using hc
  | ok ws =>
    obtain ⟨hsome, hmem⟩ := mem_of_coerceAll hall
    have hnone := List.forall_mem_nil fun v : Value => v.isNull = true ∨ v.type = e
    have := uniform_parts e ws hnone fun w hw => .inr fun hexact => by
      obtain ⟨v, -, hv⟩ := hmem w hw
      exact Value.type_of_coerce hv hexact
    rw [← hsome] at this
    simpa [Except.map, Uniform] using this

/-! ## Collections of some values -/

/-- The common type of some values is exact, unless all of them are nulls. -/
theorem isExact_unifyAll : ∀ {vs : List Value} {held e : Ty}, unifyAll held vs = .ok e →
    held.isExact = true ∨ (∃ v ∈ vs, v.isNull = false) → e.isExact = true := by
  intro vs
  induction vs with
  | nil =>
    intro held e h hx
    cases h
    simpa using hx
  | cons v vs ih =>
    intro held e h hx
    simp only [unifyAll] at h
    split at h
    · rename_i u hu
      refine ih h ?_
      rcases hx with hx | ⟨w, hw, hn⟩
      · exact .inl (Ty.isExact_unify? hu (.inl hx))
      · rcases List.mem_cons.mp hw with rfl | hw
        · exact .inl (Ty.isExact_unify? hu (.inr (Value.isExact_type hn)))
        · exact .inr ⟨w, hw, hn⟩
    · cases h

theorem ofValues_uniform {vs : List Value} {c : Collection} (h : ofValues vs = .ok c) : c.Uniform := by
  simp only [ofValues] at h
  split at h
  · cases h
  · rename_i e he
    cases hall : Value.coerceAll vs e with
    | error x => rw [hall] at h; cases h
    | ok ws =>
      rw [hall] at h
      cases h
      obtain ⟨hsome, hmem⟩ := mem_of_coerceAll hall
      intro w hw
      cases hn : w.isNull with
      | true => exact .inl rfl
      | false =>
        obtain ⟨v, -, hv⟩ := hmem w hw
        exact .inr (Value.type_of_coerce hv (isExact_unifyAll he (.inr (hsome.mpr ⟨w, hw, hn⟩))))

/-! ## Histories -/

/-- What an operation does to a uniform collection. -/
theorem apply_uniform {c : Collection} (hc : c.Uniform) {op : Change}
    (hs : ∀ i source, op = .splice i source → source.Uniform) :
    (op.apply c).1.Uniform ↔ ¬op.Loosens c := by
  cases op with
  | insert i v => exact insertAll_uniform (t := v.type) hc (by simp) i
  | splice i source => exact insertAll_uniform hc (hs i source rfl) i
  | put i v => exact put_uniform hc i v
  | remove i => exact iff_of_true (remove_uniform hc i).1 (remove_uniform hc i).2
  | retype e => exact retype_uniform hc e

theorem Obtained.uniform {c : Collection} (h : Obtained (fun c op => ¬op.Loosens c) c) : c.Uniform := by
  induction h with
  | empty e => simp [Uniform]
  | ofValues h => exact ofValues_uniform h
  | change _ _ hn ih ihs => exact (apply_uniform ih ihs).mpr hn

/-- An untyped collection stores a collection as it is and stays untyped. -/
theorem untyped_collection_strays :
    Obtained (fun _ _ => True) ⟨Ty.untyped, [.collection Ty.integer [.integer 1]]⟩ ∧
      ¬Uniform ⟨Ty.untyped, [.collection Ty.integer [.integer 1]]⟩ := by
  constructor
  · have hempty : Obtained (fun _ _ => True) ⟨Ty.untyped, []⟩ := .empty Ty.untyped
    have hone : ∀ i source, Change.insert 0 (.collection Ty.integer [.integer 1]) = .splice i source →
        Obtained (fun _ _ => True) source := nofun
    exact .change hempty hone trivial
  · intro h
    rcases h _ List.mem_cons_self with hn | ht
    · cases hn
    · cases ht

/-- Collections obtained without a loosening operation are uniform, and the next operation leaves
them so exactly if it is no loosening one. -/
theorem uniform_exactly {c : Collection} {op : Change} (h : Obtained (fun c op => ¬op.Loosens c) c)
    (hs : ∀ i source, op = .splice i source → Obtained (fun c op => ¬op.Loosens c) source) :
    c.Uniform ∧ ((op.apply c).1.Uniform ↔ ¬op.Loosens c) :=
  ⟨h.uniform, apply_uniform h.uniform fun i source he => (hs i source he).uniform⟩

/-- A collection of untyped nulls takes in the elements of a collection of integers. -/
theorem uniform_exactly_splice :
    Obtained (fun c op => ¬op.Loosens c) ⟨Ty.untyped, [.null Ty.untyped]⟩ ∧
      Obtained (fun c op => ¬op.Loosens c) ⟨Ty.integer, [.integer 1]⟩ ∧
      Uniform ⟨Ty.untyped, [.null Ty.untyped]⟩ ∧
      (((Change.splice 1 ⟨Ty.integer, [.integer 1]⟩).apply ⟨Ty.untyped, [.null Ty.untyped]⟩).1.Uniform ↔
        ¬(Change.splice 1 ⟨Ty.integer, [.integer 1]⟩).Loosens ⟨Ty.untyped, [.null Ty.untyped]⟩) := by
  have hnull : Obtained (fun c op => ¬op.Loosens c) ⟨Ty.untyped, [.null Ty.untyped]⟩ :=
    .ofValues (show ofValues [.null Ty.untyped] = _ from rfl)
  have hone : Obtained (fun c op => ¬op.Loosens c) ⟨Ty.integer, [.integer 1]⟩ :=
    .ofValues (show ofValues [.integer 1] = _ from rfl)
  refine ⟨hnull, hone, uniform_exactly hnull fun i source he => ?_⟩
  cases he
  exact hone

end Collection
end Crunch
