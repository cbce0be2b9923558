import Crunch.Proofs.Aliases
import Crunch.State
import Mathlib.Algebra.GroupWithZero.Nat

/-!
# Crunch.Proofs.Occurrences

Where the aliases of an object are.

* `Value.at?`, `State.at?`: the value at a place. A place is the number of a scope, the number of a variable in
  it, and the position at each depth of nesting in its value.
* `State.places`: the places of the aliases of an object.
* `State.mem_places`, `State.nodup_places`, `State.length_places`: they are all of them, once each, and as many
  as there are references.
-/

namespace Crunch

/-- The lists of numbers that lead into elements: the number of the element, and a list that `f` gives for it. -/
def spread {α : Type} (f : α → List (List Nat)) (i : Nat) : List α → List (List Nat)
  | [] => []
  | a :: as => (f a).map (i :: ·) ++ spread f (i + 1) as

section Spread

variable {α : Type} {f : α → List (List Nat)}

theorem mem_spread {i : Nat} {as : List α} {path : List Nat} :
    path ∈ spread f i as ↔ ∃ j a rest, as[j]? = some a ∧ rest ∈ f a ∧ path = (i + j) :: rest := by
  induction as generalizing i with
  | nil => simp [spread]
  | cons a as ih =>
    simp only [spread, List.mem_append, List.mem_map, ih]
    constructor
    · rintro (⟨rest, hr, rfl⟩ | ⟨j, b, rest, hb, hr, rfl⟩)
      · exact ⟨0, a, rest, rfl, hr, rfl⟩
      · exact ⟨j + 1, b, rest, hb, hr, by rw [Nat.add_assoc, Nat.add_comm 1 j]⟩
    · rintro ⟨j, b, rest, hb, hr, rfl⟩
      cases j with
      | zero =>
        cases hb
        exact .inl ⟨rest, hr, rfl⟩
      | succ j => exact .inr ⟨j, b, rest, hb, hr, by rw [Nat.add_assoc, Nat.add_comm 1 j]⟩

theorem nodup_spread {i : Nat} {as : List α} (h : ∀ a ∈ as, (f a).Nodup) : (spread f i as).Nodup := by
  induction as generalizing i with
  | nil => exact .nil
  | cons a as ih =>
    obtain ⟨ha, has⟩ := List.forall_mem_cons.mp h
    refine List.nodup_append.mpr ⟨?_, ih has, ?_⟩
    · exact List.Pairwise.map _ (fun _ _ hne he => hne (List.cons.inj he).2) ha
    · rintro p hp q hq rfl
      obtain ⟨rest, -, rfl⟩ := List.mem_map.mp hp
      obtain ⟨j, _, _, _, _, he⟩ := mem_spread.mp hq
      have := (List.cons.inj he).1
      omega

theorem length_spread {i : Nat} {as : List α} : (spread f i as).length = (as.map fun a => (f a).length).sum := by
  induction as generalizing i with
  | nil => rfl
  | cons a as ih => simp [spread, ih]

end Spread

namespace Value

/-- The fields or elements of a value. -/
def children : Value → List Value
  | .tuple fields _ => fields
  | .collection _ items => items
  | _ => []

/-- The value at the end of a path of positions. -/
def at? : List Nat → Value → Option Value
  | [], v => some v
  | i :: path, v => (v.children[i]?).bind (at? path)

mutual

/-- The paths to the aliases of an object. -/
def places (id : Nat) : Value → List (List Nat)
  | .object _ n => if n = id then [[]] else []
  | .tuple fields _ => placesAll id 0 fields
  | .collection _ items => placesAll id 0 items
  | _ => []

def placesAll (id i : Nat) : List Value → List (List Nat)
  | [] => []
  | v :: vs => (places id v).map (i :: ·) ++ placesAll id (i + 1) vs

end

/-- The path to the value itself, if it is an alias. -/
def here (id : Nat) : Value → List (List Nat)
  | .object _ n => if n = id then [[]] else []
  | _ => []

theorem placesAll_eq (id i : Nat) (vs : List Value) : placesAll id i vs = spread (places id) i vs := by
  induction vs generalizing i with
  | nil => rfl
  | cons v vs ih => simp only [placesAll, spread, ih]

theorem places_eq (id : Nat) (v : Value) : v.places id = v.here id ++ spread (places id) 0 v.children := by
  cases v <;> simp [places, here, children, placesAll_eq, spread]

theorem count_references (id : Nat) (v : Value) :
    v.references.count id = (v.here id).length + (v.children.map fun w => w.references.count id).sum := by
  have hall : ∀ vs : List Value, (referencesAll vs).count id = (vs.map fun w => w.references.count id).sum := fun vs => by
    rw [referencesAll_eq, List.count_flatMap]
    rfl
  cases v with
  | object native n =>
    simp only [references, here, children]
    split <;> simp [*]
  | tuple fields declared => simp [references, here, children, hall]
  | collection e items => simp [references, here, children, hall]
  | _ => rfl

mutual

/-- What holds of a value when it holds of its fields and elements holds of every value. -/
theorem nest {P : Value → Prop} (h : ∀ v, (∀ w ∈ v.children, P w) → P v) (v : Value) : P v := by
  cases v with
  | tuple fields declared => exact h _ (nestAll h fields)
  | collection e items => exact h _ (nestAll h items)
  | _ => exact h _ nofun

theorem nestAll {P : Value → Prop} (h : ∀ v, (∀ w ∈ v.children, P w) → P v) (vs : List Value) : ∀ w ∈ vs, P w := by
  cases vs with
  | nil => nofun
  | cons v vs => exact List.forall_mem_cons.mpr ⟨nest h v, nestAll h vs⟩

end

theorem mem_here {id : Nat} {v : Value} {path : List Nat} : path ∈ v.here id ↔ path = [] ∧ ∃ native, v = .object native id := by
  cases v with
  | object native n =>
    simp only [here]
    split
    · simp [*]
    · simp [*]
  | _ => simp [here]

theorem mem_places {id : Nat} {path : List Nat} (v : Value) :
    path ∈ v.places id ↔ ∃ native, v.at? path = some (.object native id) := by
  induction v using nest generalizing path with
  | h v ih =>
    rw [places_eq, List.mem_append, mem_here, mem_spread]
    cases path with
    | nil => simp [at?]
    | cons i path =>
      simp only [at?, reduceCtorEq, false_and, false_or, List.cons.injEq, Nat.zero_add, Option.bind_eq_some_iff]
      constructor
      · rintro ⟨j, w, rest, hw, hr, rfl, rfl⟩
        obtain ⟨native, hn⟩ := (ih w (List.mem_of_getElem? hw)).mp hr
        exact ⟨native, w, hw, hn⟩
      · rintro ⟨native, w, hw, hn⟩
        exact ⟨i, w, path, hw, (ih w (List.mem_of_getElem? hw)).mpr ⟨native, hn⟩, rfl, rfl⟩

theorem nodup_places (id : Nat) (v : Value) : (v.places id).Nodup := by
  induction v using nest with
  | h v ih =>
    rw [places_eq]
    refine List.nodup_append.mpr ⟨?_, nodup_spread ih, ?_⟩
    · cases v with
      | object native n =>
        simp only [here]
        split <;> simp
      | _ => exact .nil
    · rintro p hp q hq rfl
      obtain ⟨rfl, -⟩ := mem_here.mp hp
      obtain ⟨_, _, _, _, _, he⟩ := mem_spread.mp hq
      cases he

theorem length_places (id : Nat) (v : Value) : (v.places id).length = v.references.count id := by
  induction v using nest with
  | h v ih => rw [places_eq, List.length_append, length_spread, count_references, List.map_congr_left ih]

end Value

namespace State

/-- The value at a place. -/
def at? (s : State) : List Nat → Option Value
  | i :: j :: path => (s.scopes[i]?.bind (·[j]?)).bind fun p => p.2.value.at? path
  | _ => none

/-- Whether there is an alias of an object at a place. -/
def AliasAt (s : State) (id : Nat) (place : List Nat) : Prop := ∃ native, s.at? place = some (.object native id)

/-- The places of the aliases of an object. -/
def places (s : State) (id : Nat) : List (List Nat) :=
  spread (fun scope => spread (fun p => p.2.value.places id) 0 scope) 0 s.scopes

variable {s : State} {id : Nat}

theorem mem_places {place : List Nat} : place ∈ s.places id ↔ s.AliasAt id place := by
  simp only [places, AliasAt, mem_spread, Value.mem_places, Nat.zero_add]
  constructor
  · rintro ⟨i, scope, rest, hscope, ⟨j, p, path, hp, ⟨native, hn⟩, rfl⟩, rfl⟩
    exact ⟨native, by simp [at?, hscope, hp, hn]⟩
  · rintro ⟨native, hn⟩
    match place with
    | i :: j :: path =>
      simp only [at?, Option.bind_eq_some_iff] at hn
      obtain ⟨p, ⟨scope, hscope, hp⟩, hn⟩ := hn
      exact ⟨i, scope, j :: path, hscope, ⟨j, p, path, hp, ⟨native, hn⟩, rfl⟩, rfl⟩

theorem nodup_places : (s.places id).Nodup :=
  nodup_spread fun _ _ => nodup_spread fun p _ => p.2.value.nodup_places id

theorem length_places : (s.places id).length = s.references.count id := by
  simp only [places, length_spread, Value.length_places, references, List.count_flatMap, Function.comp_def]

/-- What variables refer to has an alias somewhere. -/
theorem mem_references_iff : id ∈ s.references ↔ ∃ place, s.AliasAt id place := by
  rw [← List.count_pos_iff, ← length_places, List.length_pos_iff_exists_mem]
  exact exists_congr fun _ => mem_places

end State
end Crunch
