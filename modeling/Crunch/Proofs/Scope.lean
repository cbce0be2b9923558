import Crunch.Scope

/-!
# Crunch.Proofs.Scope

Laws of nested scopes.

* `Scope.lookup_put`: what a name stands for after a declaration.
* `Scopes.find?_update`: what a name stands for after a change of the innermost declaration of one.
* `Scopes.map`: a function of everything that is declared.
* `Scopes.All`: what holds of everything that is declared.
* `Scopes.Related`: how what names stand for before and after may differ, scope by scope. In the
  innermost scope, some names may be declared anew.
* `Scopes.at?`: a scope by its height.
-/

namespace Crunch

variable {α β : Type}

namespace Scope

@[simp] theorem lookup_put (s : Scope α) (name other : String) (a : α) :
    (s.put name a).lookup other = if other = name then some a else s.lookup other := by
  induction s with
  | nil =>
    by_cases h : other = name
    · simp [put, h]
    · simp [put, h, List.lookup_cons, beq_eq_false_iff_ne.mpr h]
  | cons p rest ih =>
    obtain ⟨n, b⟩ := p
    by_cases hn : n = name
    · subst hn
      by_cases h : other = n
      · simp [put, h]
      · simp [put, h, List.lookup_cons, beq_eq_false_iff_ne.mpr h]
    · by_cases h : other = n
      · subst h
        simp [put, hn]
      · simp [put, hn, List.lookup_cons, beq_eq_false_iff_ne.mpr h, ih]

theorem has_iff {s : Scope α} {name : String} : s.has name = true ↔ ∃ a, s.lookup name = some a := by
  simp [has, Option.isSome_iff_exists]

/-- A declaration adds one entry or replaces one. -/
theorem mem_put {s : Scope α} {name : String} {a : α} {p : String × α} (h : p ∈ s.put name a) :
    p = (name, a) ∨ p ∈ s := by
  induction s with
  | nil => exact .inl (List.mem_singleton.mp h)
  | cons q rest ih =>
    obtain ⟨n, b⟩ := q
    simp only [put] at h
    split at h
    · rcases List.mem_cons.mp h with h | h
      · exact .inl h
      · exact .inr (List.mem_cons_of_mem _ h)
    · rcases List.mem_cons.mp h with h | h
      · exact .inr (h ▸ List.mem_cons_self)
      · exact (ih h).imp id (List.mem_cons_of_mem _)

theorem mem_of_lookup {s : Scope α} {name : String} {a : α} (h : s.lookup name = some a) :
    (name, a) ∈ s := by
  induction s with
  | nil => cases h
  | cons q rest ih =>
    obtain ⟨n, b⟩ := q
    rw [List.lookup_cons] at h
    by_cases hn : name = n
    · subst hn
      simp only [beq_self_eq_true] at h
      cases h
      exact List.mem_cons_self
    · rw [beq_eq_false_iff_ne.mpr hn] at h
      exact List.mem_cons_of_mem _ (ih h)

theorem all_put {p : α → Prop} {s : Scope α} {name : String} {a : α} (hs : ∀ q ∈ s, p q.2) (ha : p a) :
    ∀ q ∈ s.put name a, p q.2 := by
  intro q hq
  rcases mem_put hq with rfl | hq
  · exact ha
  · exact hs q hq

/-- A function of what names stand for, after a declaration. -/
theorem map_put (f : α → β) (s : Scope α) (name : String) (a : α) :
    (s.put name a).map (fun q => (q.1, f q.2)) = Scope.put (s.map fun q => (q.1, f q.2)) name (f a) := by
  induction s with
  | nil => rfl
  | cons q rest ih =>
    simp only [put, List.map_cons]
    split
    · rfl
    · rw [List.map_cons, ih]

theorem put_lookup {s : Scope α} {name : String} {a : α} (h : s.lookup name = some a) : s.put name a = s := by
  induction s with
  | nil => cases h
  | cons q rest ih =>
    obtain ⟨n, b⟩ := q
    rw [List.lookup_cons] at h
    simp only [put]
    split
    · rename_i hn
      subst hn
      simp only [beq_self_eq_true, Option.some.injEq] at h
      rw [h]
    · rename_i hn
      rw [beq_eq_false_iff_ne.mpr (Ne.symm hn)] at h
      rw [ih h]

/-- Whether no name is declared twice. -/
def Distinct (s : Scope α) : Prop := (s.map (·.1)).Nodup

theorem lookup_eq_none {s : Scope α} {name : String} : s.lookup name = none ↔ name ∉ s.map (·.1) := by
  rw [List.lookup_eq_none_iff, List.mem_map]
  exact ⟨fun h ⟨p, hp, he⟩ => by simpa [he] using h p hp, fun h p hp => by
    simpa using fun he => h ⟨p, hp, he.symm⟩⟩

theorem lookup_map (f : α → β) (s : Scope α) (name : String) :
    List.lookup name (s.map fun q => (q.1, f q.2)) = (s.lookup name).map f := by
  induction s with
  | nil => rfl
  | cons q rest ih =>
    rw [List.map_cons, List.lookup_cons, List.lookup_cons, ih]
    cases name == q.1 <;> rfl

theorem distinct_put {s : Scope α} (h : s.Distinct) (name : String) (a : α) : (s.put name a).Distinct := by
  induction s with
  | nil => simp [put, Distinct]
  | cons q rest ih =>
    obtain ⟨n, b⟩ := q
    simp only [Distinct, List.map_cons, List.nodup_cons] at h
    simp only [put]
    split
    · rename_i hn
      subst hn
      simpa only [Distinct, List.map_cons, List.nodup_cons] using h
    · rename_i hn
      simp only [Distinct, List.map_cons, List.nodup_cons]
      refine ⟨fun hm => ?_, ih h.2⟩
      obtain ⟨p, hp, he⟩ := List.mem_map.mp hm
      rcases mem_put hp with rfl | hp
      · exact hn he.symm
      · exact h.1 (List.mem_map.mpr ⟨p, hp, he⟩)

/-- Declarations made in order, none of which replaces an other one. -/
theorem lookup_putAll {s : Scope α} (h : s.Distinct) (seen : Scope α) (name : String) :
    (s.foldl (fun seen q => seen.put q.1 q.2) seen).lookup name = (s.lookup name).or (seen.lookup name) := by
  induction s generalizing seen with
  | nil => rfl
  | cons q rest ih =>
    simp only [Distinct, List.map_cons, List.nodup_cons] at h
    rw [List.foldl_cons, ih h.2, lookup_put, List.lookup_cons]
    by_cases hn : name = q.1
    · subst hn
      rw [lookup_eq_none.mpr h.1]
      simp
    · rw [if_neg hn, beq_eq_false_iff_ne.mpr hn]

end Scope

namespace Scopes

theorem find?_cons (s : Scope α) (ss : Scopes α) (name : String) :
    find? (s :: ss) name = (s.lookup name).or (ss.find? name) := by
  simp only [find?, List.findSome?_cons]
  cases s.lookup name <;> rfl

theorem find?_update {ss : Scopes α} {name : String} {b : α} (h : ss.find? name = some b) (other : String)
    (a : α) : (ss.update name a).find? other = if other = name then some a else ss.find? other := by
  induction ss with
  | nil => cases h
  | cons s rest ih =>
    simp only [update]
    split
    · simp only [find?_cons, Scope.lookup_put]
      split <;> rfl
    · rename_i hs
      have hnone : s.lookup name = none := by
        simpa only [Scope.has, Bool.not_eq_true, Option.isSome_eq_false_iff, Option.isNone_iff_eq_none] using hs
      rw [find?_cons, hnone, Option.none_or] at h
      simp only [find?_cons, ih h]
      split
      · rename_i he
        rw [he, hnone, Option.none_or]
      · rfl

/-- Scopes with a function applied to what names stand for. -/
def map (f : α → β) (ss : Scopes α) : Scopes β := List.map (fun s => List.map (fun q => (q.1, f q.2)) s) ss

theorem find?_map (f : α → β) (ss : Scopes α) (name : String) : (ss.map f).find? name = (ss.find? name).map f := by
  induction ss with
  | nil => rfl
  | cons s rest ih =>
    have hm : map f (s :: rest) = (s.map fun q => (q.1, f q.2)) :: map f rest := rfl
    rw [hm, find?_cons, find?_cons, Scope.lookup_map, ih]
    cases s.lookup name <;> rfl

theorem map_define (f : α → β) (ss : Scopes α) (name : String) (a : α) :
    (ss.define name a).map f = (ss.map f).define name (f a) := by
  cases ss with
  | nil => rfl
  | cons s rest => exact congrArg (· :: map f rest) (Scope.map_put f s name a)

theorem update_find? {ss : Scopes α} {name : String} {a : α} (h : ss.find? name = some a) :
    ss.update name a = ss := by
  induction ss with
  | nil => rfl
  | cons s rest ih =>
    rw [find?_cons, Option.or_eq_some_iff] at h
    simp only [update]
    split
    · rename_i hs
      obtain ⟨b, hb⟩ := Scope.has_iff.mp hs
      have hba : b = a := by
        rcases h with h | ⟨hn, -⟩
        · exact Option.some.inj (hb.symm.trans h)
        · rw [hb] at hn
          cases hn
      rw [Scope.put_lookup (hba ▸ hb)]
    · rename_i hs
      rcases h with h | ⟨-, h⟩
      · exact absurd (Scope.has_iff.mpr ⟨a, h⟩) hs
      · rw [ih h]

theorem has_map (f : α → β) (s : Scope α) (name : String) :
    Scope.has (s.map fun q => (q.1, f q.2)) name = s.has name := by
  simp only [Scope.has, Scope.lookup_map, Option.isSome_map]

theorem map_update (f : α → β) (ss : Scopes α) (name : String) (a : α) :
    (ss.update name a).map f = (ss.map f).update name (f a) := by
  induction ss with
  | nil => rfl
  | cons s rest ih =>
    have hm : map f (s :: rest) = (s.map fun q => (q.1, f q.2)) :: map f rest := rfl
    rw [hm]
    simp only [update, has_map]
    split
    · exact congrArg (· :: map f rest) (Scope.map_put f s name a)
    · exact congrArg ((s.map fun q => (q.1, f q.2)) :: ·) ih

/-- Whether something holds of everything that is declared. -/
def All (p : α → Prop) (ss : Scopes α) : Prop := ∀ s ∈ ss, ∀ q ∈ s, p q.2

theorem All.find {p : α → Prop} {ss : Scopes α} {name : String} {a : α} (h : All p ss)
    (ha : ss.find? name = some a) : p a := by
  obtain ⟨s, hs, hl⟩ := List.exists_of_findSome?_eq_some ha
  exact h s hs _ (Scope.mem_of_lookup hl)

theorem All.cons {p : α → Prop} {s : Scope α} {ss : Scopes α} (hs : ∀ q ∈ s, p q.2) (h : All p ss) :
    All p (s :: ss) := by
  intro t ht
  rcases List.mem_cons.mp ht with rfl | ht
  · exact hs
  · exact h t ht

theorem All.map {p : β → Prop} {f : α → β} {ss : Scopes α} (h : All (fun a => p (f a)) ss) : All p (ss.map f) := by
  intro s hs q hq
  obtain ⟨s', hs', rfl⟩ := List.mem_map.mp hs
  obtain ⟨q', hq', rfl⟩ := List.mem_map.mp hq
  exact h s' hs' q' hq'

theorem All.drop {p : α → Prop} {ss : Scopes α} (h : All p ss) : All p (ss.drop 1) :=
  fun s hs => h s (List.mem_of_mem_drop hs)

theorem All.define {p : α → Prop} {ss : Scopes α} {name : String} {a : α} (h : All p ss) (ha : p a) :
    All p (ss.define name a) := by
  cases ss with
  | nil => exact h
  | cons s rest =>
    refine .cons (Scope.all_put (h s List.mem_cons_self) ha) fun t ht => h t (List.mem_cons_of_mem _ ht)

theorem All.update {p : α → Prop} {ss : Scopes α} {name : String} {a : α} (h : All p ss) (ha : p a) :
    All p (ss.update name a) := by
  induction ss with
  | nil => exact h
  | cons s rest ih =>
    have hrest : All p rest := fun t ht => h t (List.mem_cons_of_mem _ ht)
    simp only [Scopes.update]
    split
    · exact .cons (Scope.all_put (h s List.mem_cons_self) ha) hrest
    · exact .cons (h s List.mem_cons_self) (ih hrest)

/-- What every name stands for before and after is related, but for names `D` of the innermost
scope. -/
def Related (r : Option α → Option α → Prop) (D : String → Prop) : Scopes α → Scopes α → Prop
  | [], [] => True
  | s :: ss, t :: ts => (∀ name, D name ∨ r (s.lookup name) (t.lookup name)) ∧ Related r (fun _ => False) ss ts
  | _, _ => False

/-- The scope at a height, counted from the outermost one. -/
def at? (ss : Scopes α) (i : Nat) : Option (Scope α) := ss.reverse[i]?

section Related

variable {r : Option α → Option α → Prop} {D : String → Prop}

theorem Related.refl (hr : ∀ a, r a a) : ∀ {D : String → Prop} (ss : Scopes α), Related r D ss ss := by
  intro D ss
  induction ss generalizing D with
  | nil => trivial
  | cons s rest ih => exact ⟨fun name => .inr (hr _), ih⟩

theorem Related.trans (hr : ∀ a b c, r a b → r b c → r a c) :
    ∀ {D : String → Prop} {ss ts us : Scopes α}, Related r D ss ts → Related r D ts us → Related r D ss us := by
  intro D ss
  induction ss generalizing D with
  | nil =>
    intro ts us h h'
    cases ts with
    | nil => exact h'
    | cons t ts => exact h.elim
  | cons s ss ih =>
    intro ts us h h'
    cases ts with
    | nil => exact h.elim
    | cons t ts =>
      cases us with
      | nil => exact h'.elim
      | cons u us =>
        refine ⟨fun name => ?_, ih h.2 h'.2⟩
        rcases h.1 name with hd | hst
        · exact .inl hd
        · exact (h'.1 name).imp id (hr _ _ _ hst)

theorem Related.mono {E : String → Prop} {ss ts : Scopes α} (hd : ∀ n, D n → E n) (h : Related r D ss ts) :
    Related r E ss ts := by
  cases ss <;> cases ts <;> first | exact h | exact ⟨fun name => (h.1 name).imp (hd name) id, h.2⟩

theorem Related.define (hr : ∀ a, r a a) {ss : Scopes α} {name : String} {a : α} (h : D name) :
    Related r D ss (ss.define name a) := by
  cases ss with
  | nil => trivial
  | cons s rest =>
    refine ⟨fun other => ?_, .refl hr rest⟩
    rw [Scope.lookup_put]
    split
    · rename_i he
      exact .inl (he ▸ h)
    · exact .inr (hr _)

theorem Related.update (hr : ∀ a, r a a) {name : String} {a b : α} (h : r (some a) (some b)) :
    ∀ {D : String → Prop} {ss : Scopes α}, ss.find? name = some a → Related r D ss (ss.update name b) := by
  intro D ss
  induction ss generalizing D with
  | nil => exact fun _ => trivial
  | cons s rest ih =>
    intro hf
    rw [find?_cons] at hf
    simp only [Scopes.update]
    split
    · rename_i hs
      obtain ⟨c, hc⟩ := Scope.has_iff.mp hs
      rw [hc] at hf
      cases hf
      refine ⟨fun other => .inr ?_, .refl hr rest⟩
      rw [Scope.lookup_put]
      split
      · rename_i he
        rw [he, hc]
        exact h
      · exact hr _
    · rename_i hs
      have hnone : s.lookup name = none := by
        simpa only [Scope.has, Bool.not_eq_true, Option.isSome_eq_false_iff, Option.isNone_iff_eq_none] using hs
      rw [hnone, Option.none_or] at hf
      exact ⟨fun other => .inr (hr _), ih hf⟩

theorem Related.drop {E : String → Prop} {ss ts : Scopes α} (h : Related r E ([] :: ss) ts) :
    Related r D ss (ts.drop 1) := by
  cases ts with
  | nil => exact h.elim
  | cons t ts => exact h.2.mono fun _ => False.elim

theorem Related.length : ∀ {D : String → Prop} {ss ts : Scopes α}, Related r D ss ts → ts.length = ss.length := by
  intro D ss
  induction ss generalizing D with
  | nil =>
    intro ts h
    cases ts with
    | nil => rfl
    | cons t ts => exact h.elim
  | cons s ss ih =>
    intro ts h
    cases ts with
    | nil => exact h.elim
    | cons t ts => exact congrArg (· + 1) (ih h.2)

/-- A relation that leaves no name without a declaration leaves it one that can be seen. -/
theorem Related.find? (hr : ∀ a b, r (some a) b → b.isSome = true) :
    ∀ {ss ts : Scopes α}, Related r (fun _ => False) ss ts → ∀ {name : String} {a : α}, ss.find? name = some a →
      ∃ b, ts.find? name = some b := by
  intro ss
  induction ss with
  | nil => exact fun _ _ _ ha => by cases ha
  | cons s ss ih =>
    intro ts h name a ha
    cases ts with
    | nil => exact h.elim
    | cons t ts =>
      rw [find?_cons] at ha ⊢
      cases ht : t.lookup name with
      | some b => exact ⟨b, rfl⟩
      | none =>
        have hs : s.lookup name = none := by
          cases hs : s.lookup name with
          | none => rfl
          | some c =>
            have hrel := (h.1 name).resolve_left id
            rw [hs, ht] at hrel
            cases hr c none hrel
        rw [hs, Option.none_or] at ha
        exact ih h.2 ha

/-- Related scopes, by their height. -/
theorem Related.at? : ∀ {D : String → Prop} {ss ts : Scopes α}, Related r D ss ts → ∀ {i : Nat} {s : Scope α},
    ss.at? i = some s → ∃ t, ts.at? i = some t ∧
      ∀ name, (i + 1 = ss.length ∧ D name) ∨ r (s.lookup name) (t.lookup name) := by
  intro D ss
  induction ss generalizing D with
  | nil => exact fun _ _ _ hs => by simp [Scopes.at?] at hs
  | cons u ss ih =>
    intro ts h i s hs
    cases ts with
    | nil => exact h.elim
    | cons v ts =>
      have hl := h.2.length
      simp only [Scopes.at?, List.reverse_cons] at hs ⊢
      by_cases hi : i < ss.length
      · rw [List.getElem?_append_left (by simpa using hi)] at hs
        rw [List.getElem?_append_left (by simpa [hl] using hi)]
        obtain ⟨t, ht, hr⟩ := ih h.2 hs
        exact ⟨t, ht, fun name => (hr name).elim (fun hf => hf.2.elim) .inr⟩
      · have hie : i = ss.length := by
          have := (List.getElem?_eq_some_iff.mp hs).1
          simp at this
          omega
        subst hie
        rw [List.getElem?_append_right (by simp)] at hs
        rw [List.getElem?_append_right (by simp [hl])]
        simp only [List.length_reverse, Nat.sub_self, hl] at hs ⊢
        cases hs
        exact ⟨v, rfl, fun name => (h.1 name).imp (⟨rfl, ·⟩) id⟩

end Related

end Scopes
end Crunch
