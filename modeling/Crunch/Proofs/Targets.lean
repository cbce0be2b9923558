import Crunch.Pattern.Bundled
import Crunch.Proofs.Nesting

/-!
# Crunch.Proofs.Targets

A statement changes the variables that it names as targets, and no others.

* `Column.Unwritten`: a column of which only the innermost place may have changed.
* `Trail.unwritten`: steps that have no licence for a name leave its column alone, except for
  declarations in the innermost scope.
* `Statement.changes_targets`: so does a statement with every name that is not in `Statement.writes`.
-/

namespace Crunch

open Run

namespace Column

variable {α : Type}

/-- A column that is the same below the innermost scope, and throughout if `d` does not hold. -/
inductive Unwritten (d : Prop) : List (Option α) → List (Option α) → Prop where
  | nil : Unwritten d [] []
  | cons {cs : List (Option α)} {b c : Option α} : d ∨ c = b → Unwritten d (b :: cs) (c :: cs)

namespace Unwritten

variable {d : Prop} {cs ds es : List (Option α)}

theorem refl (cs : List (Option α)) : Unwritten d cs cs := by
  cases cs with
  | nil => exact .nil
  | cons c cs => exact .cons (.inr rfl)

theorem trans (h : Unwritten d cs ds) (h' : Unwritten d ds es) : Unwritten d cs es := by
  cases h with
  | nil => exact h'
  | cons hb =>
    cases h' with
    | cons hc =>
      refine .cons ?_
      rcases hb with hd | rfl
      · exact .inl hd
      · exact hc

theorem eq (h : Unwritten d cs ds) (hd : ¬d) : ds = cs := by
  cases h with
  | nil => rfl
  | cons hb => rw [hb.resolve_left hd]

theorem at? (h : Unwritten d cs ds) {i : Nat} (hi : ¬(i + 1 = cs.length ∧ d)) : Column.at? ds i = Column.at? cs i := by
  cases h with
  | nil => rfl
  | cons hb =>
    rw [List.length_cons] at hi
    rw [at?_cons, at?_cons]
    split
    · rename_i he
      have hd : ¬d := fun hd => hi ⟨by omega, hd⟩
      exact hb.resolve_left hd
    · rfl

end Unwritten
end Column

open Column

/-- A name that may not be written keeps its variables, whatever else a run does. -/
theorem Trail.unwritten {L : Licence} {D : String → Prop} {s t : State} (h : Trail L D s t) {name : String}
    (hn : ¬L.names name) : Unwritten (D name) (s.scopes.column name) (t.scopes.column name) := by
  induction h with
  | refl => exact .refl _
  | trans _ _ ih₁ ih₂ => exact ih₁.trans ih₂
  | write hl _ _ =>
    have hne : name ≠ _ := fun he => hn (he ▸ hl)
    simp only [State.write, Scopes.column_update_other hne]
    exact .refl _
  | @declare D s n v hd =>
    by_cases he : name = n
    · subst he
      cases hs : s.scopes with
      | nil =>
        simp only [State.declare, hs, Scopes.define]
        exact .refl _
      | cons scope rest =>
        simp only [State.declare, hs, Scopes.define, Scopes.column, List.map_cons]
        exact .cons (.inl hd)
    · simp only [State.declare, Scopes.column_define_other he]
      exact .refl _
  | @nest D B s t _ ih =>
    -- The scope that has been opened is the head of the column, which goes away again.
    simp only [State.enter, Scopes.column, List.map_cons, State.leave, List.map_drop] at ih ⊢
    generalize List.map (fun scope => List.lookup name scope) t.scopes = ds at ih ⊢
    cases ih with
    | cons _ => exact .refl _
  | sweep =>
    rw [Heap.scopes_swept]
    exact .refl _
  | build _ => exact .refl _
  | keep => exact .refl _
  | busy _ ih => exact ih
  | aside hb =>
    rw [hb.scopes]
    exact .refl _

theorem Trail.slot? {L : Licence} {D : String → Prop} {s t : State} (h : Trail L D s t) {i : Nat} {name : String}
    (hn : ¬L.names name) (hi : ¬(i + 1 = s.scopes.length ∧ D name)) : t.slot? i name = s.slot? i name := by
  rw [State.slot?_eq, State.slot?_eq]
  refine (h.unwritten hn).at? ?_
  simpa [Scopes.column] using hi

/-- A statement leaves every variable, in whatever scope, as it is, value and type, if it does not name the
variable as a target, unless it is a `let` that declares the variable anew. Native methods are assumed to
store only through the arguments that they are given. -/
theorem Statement.changes_targets {s : State} (hs : s.AllNative NativeType.Confined) (held : List Value)
    (passes : Nat) (st : Statement) {i : Nat} {name : String} (hw : name ∉ st.writes s.hasMethod)
    (hd : ¬(i + 1 = s.scopes.length ∧ name ∈ st.declared ∧ ∃ v t, st.exec held passes s = .ok v t)) :
    ((st.exec held passes).after s).slot? i name = s.slot? i name := by
  have hnatives := Licence.allNative_confined hs (st.writes s.hasMethod)
  have hnames : ∀ n ∈ st.writes s.hasMethod, (Licence.confined s.hasMethod (st.writes s.hasMethod)).names n :=
    fun _ hn => hn
  cases hx : st.exec held passes s with
  | ok v t =>
    have htrail := st.traces_exec held passes hnames s hnatives
    rw [ends_of_ok hx] at htrail
    simp only [after, hx]
    exact htrail.1.slot? hw fun hi => hd ⟨hi.1, hi.2, v, t, hx⟩
  | error e t =>
    have htrail := Statement.trail_of_error hnames hnatives hx
    simp only [after, hx]
    exact htrail.slot? hw fun hi => hi.2

/-- A loop over a variable of the name `x` reads `y` and writes `z`, and fails in its first pass. The
variable `x` outside is another one. -/
theorem Statement.changes_targets_loop :
    let body : List Statement :=
      [.assign 2 "z" (.member 2 (.var 2 "x") (.named "append") [.var 2 "y"]), .raise 3 "stop"]
    let st : Statement := .each 1 "x" (.elements (.collection 1 [.constant 1 (.literal "a")])) body
    let fresh : State := State.fresh .bundled ⟨[], 0, []⟩ [] ⟨[], []⟩
    let s : State := ((fresh.declare "x" (.integer 1)).declare "y" (.literal "b")).declare "z" (.literal "")
    s.AllNative NativeType.Confined ∧ "y" ∉ st.writes s.hasMethod ∧ "y" ∉ st.declared ∧
      ((st.exec [] 0).after s).slot? 0 "y" = some ⟨Ty.literal, .literal "b"⟩ := by
  intro body st fresh s
  have hs : s.AllNative NativeType.Confined := (State.confined_fresh .bundled ⟨[], 0, []⟩ [] ⟨[], []⟩).same rfl rfl
  have hw : "y" ∉ st.writes s.hasMethod := by decide
  have hd : "y" ∉ st.declared := by decide
  refine ⟨hs, hw, hd, ?_⟩
  rw [Statement.changes_targets hs [] 0 st hw fun hi => hd hi.2.1]
  rfl

end Crunch
