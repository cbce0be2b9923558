import Crunch.Proofs.Typed

/-!
# Crunch.Proofs.Nesting

Scopes are opened and closed in pairs, whatever happens in between.

* `Scopes.column`: what one name stands for in each scope, innermost first.
* `Column.Sheltered`: how a column may change. Names come up in the innermost scope only, none is lost,
  and what lies below the first variable of the name stays as it is.
* `frame_sheltered`: all columns change like this in every run.
* `State.Nests`: the same by heights of scopes.
* `Run.Spares`: a computation that leaves the variables of a name alone, as loops and handlers do with
  the name that they declare.
* `Program.scopes_nest`: scripts, statements, blocks and expressions keep scopes like this.
-/

namespace Crunch

open Run

/-! ## Columns -/

section Column

variable {α : Type}

/-- What a name stands for in each scope, innermost first. -/
def Scopes.column (ss : Scopes α) (name : String) : List (Option α) := List.map (·.lookup name) ss

namespace Column

/-- What a column stands for at a height, counted from the outermost scope. -/
def at? (cs : List (Option α)) (i : Nat) : Option α := (cs.reverse[i]?).join

/-- How the column of a name may change. `d` tells whether the name may be declared in the innermost
scope. Variables below the first one are out of reach. -/
inductive Sheltered : Prop → List (Option α) → List (Option α) → Prop where
  | nil {d : Prop} : Sheltered d [] []
  | absent {d : Prop} {cs ds : List (Option α)} : Sheltered False cs ds → Sheltered d (none :: cs) (none :: ds)
  | declared {d : Prop} {cs ds : List (Option α)} {a : α} :
      d → Sheltered False cs ds → Sheltered d (none :: cs) (some a :: ds)
  | present {d : Prop} {cs : List (Option α)} {a b : α} : Sheltered d (some a :: cs) (some b :: cs)

theorem at?_nil (i : Nat) : at? ([] : List (Option α)) i = none := by simp [at?]

theorem at?_cons (c : Option α) (cs : List (Option α)) (i : Nat) :
    at? (c :: cs) i = if i = cs.length then c else at? cs i := by
  unfold at?
  rw [List.reverse_cons]
  by_cases h : i < cs.length
  · rw [List.getElem?_append_left (by simpa using h), if_neg (by omega)]
  · rw [List.getElem?_append_right (by simpa using h)]
    by_cases he : i = cs.length
    · subst he
      simp
    · have hout : cs.reverse[i]? = none := by
        rw [List.getElem?_eq_none]
        simp
        omega
      have hsingle : [c][i - cs.reverse.length]? = none := by
        rw [List.getElem?_eq_none]
        simp
        omega
      rw [if_neg he, hout, hsingle]

theorem lt_of_at? {cs : List (Option α)} {i : Nat} {a : α} (h : at? cs i = some a) : i < cs.length := by
  induction cs with
  | nil =>
    rw [at?_nil] at h
    cases h
  | cons c cs ih =>
    rw [at?_cons] at h
    rw [List.length_cons]
    split at h
    · omega
    · have := ih h
      omega

namespace Sheltered

variable {d e : Prop} {cs ds es : List (Option α)}

theorem refl (d : Prop) (cs : List (Option α)) : Sheltered d cs cs := by
  induction cs generalizing d with
  | nil => exact .nil
  | cons c cs ih =>
    cases c with
    | none => exact .absent (ih False)
    | some a => exact .present

theorem mono (hde : d → e) (h : Sheltered d cs ds) : Sheltered e cs ds := by
  cases h with
  | nil => exact .nil
  | absent h => exact .absent h
  | declared hd h => exact .declared (hde hd) h
  | present => exact .present

theorem trans (h : Sheltered d cs ds) (h' : Sheltered d ds es) : Sheltered d cs es := by
  induction h generalizing es with
  | nil => exact h'
  | absent _ ih =>
    cases h' with
    | absent h' => exact .absent (ih h')
    | declared hd h' => exact .declared hd (ih h')
  | declared hd h _ =>
    -- The name has come up in between, so from there on the rest is out of reach.
    cases h' with
    | present => exact .declared hd h
  | present =>
    cases h' with
    | present => exact .present

theorem length (h : Sheltered d cs ds) : ds.length = cs.length := by
  induction h with
  | nil => rfl
  | absent _ ih => simp only [List.length_cons, ih]
  | declared _ _ ih => simp only [List.length_cons, ih]
  | present => rfl

theorem names (h : Sheltered d cs ds) (i : Nat) :
    (at? ds i).isSome = (at? cs i).isSome ∨ (i + 1 = cs.length ∧ d) := by
  induction h with
  | nil => exact .inl rfl
  | absent h ih =>
    rw [at?_cons, at?_cons, h.length]
    split
    · exact .inl rfl
    · exact ih.imp id fun hf => hf.2.elim
  | declared hd h ih =>
    rw [at?_cons, at?_cons, h.length]
    split
    · rename_i hi
      exact .inr ⟨by rw [hi, List.length_cons], hd⟩
    · exact ih.imp id fun hf => hf.2.elim
  | present =>
    rw [at?_cons, at?_cons]
    split <;> exact .inl rfl

/-- No variable is lost. -/
theorem keeps (h : Sheltered d cs ds) {i : Nat} {a : α} (hi : at? cs i = some a) : ∃ b, at? ds i = some b := by
  induction h with
  | nil =>
    rw [at?_nil] at hi
    cases hi
  | absent h ih | declared _ h ih =>
    rw [at?_cons] at hi ⊢
    rw [h.length]
    split at hi
    · cases hi
    · rename_i hne
      rw [if_neg hne]
      exact ih hi
  | present =>
    rw [at?_cons] at hi ⊢
    split
    · exact ⟨_, rfl⟩
    · rename_i hne
      rw [if_neg hne] at hi
      exact ⟨a, hi⟩

/-- A variable below another one of its name stays as it is. -/
theorem shadowed (h : Sheltered d cs ds) {i j : Nat} {a : α} (hij : i < j) (hj : at? cs j = some a) :
    at? ds i = at? cs i := by
  induction h with
  | nil => rfl
  | absent h ih | declared _ h ih =>
    rw [at?_cons] at hj
    split at hj
    · cases hj
    · have hlt := lt_of_at? hj
      rw [at?_cons, at?_cons, h.length, if_neg (by omega), if_neg (by omega)]
      exact ih hj
  | present =>
    have hlt := lt_of_at? hj
    rw [List.length_cons] at hlt
    rw [at?_cons, at?_cons, if_neg (by omega), if_neg (by omega)]

theorem first (h : Sheltered d cs ds) : (ds.findSome? id).isSome = (cs.findSome? id).isSome ∨ d := by
  induction h with
  | nil => exact .inl rfl
  | absent _ ih =>
    simp only [List.findSome?_cons, id]
    exact ih.imp id False.elim
  | declared hd _ _ => exact .inr hd
  | present => exact .inl rfl

end Sheltered
end Column

namespace Scopes

open Column

theorem column_define_other {ss : Scopes α} {name other : String} {a : α} (h : other ≠ name) :
    (ss.define name a).column other = ss.column other := by
  cases ss with
  | nil => rfl
  | cons s rest => simp only [define, column, List.map_cons, Scope.lookup_put, if_neg h]

theorem column_update_other {ss : Scopes α} {name other : String} {a : α} (h : other ≠ name) :
    (ss.update name a).column other = ss.column other := by
  induction ss with
  | nil => rfl
  | cons s rest ih =>
    simp only [update]
    split
    · simp only [column, List.map_cons, Scope.lookup_put, if_neg h]
    · simp only [column, List.map_cons] at ih ⊢
      rw [ih]

/-- A declaration reaches the innermost scope only. -/
theorem sheltered_define (ss : Scopes α) {name other : String} {a : α} {d : Prop} (hd : other = name → d) :
    Sheltered d (ss.column other) ((ss.define name a).column other) := by
  by_cases h : other = name
  · cases ss with
    | nil => exact .nil
    | cons s rest =>
      subst h
      simp only [define, column, List.map_cons, Scope.lookup_put, if_true]
      cases s.lookup other with
      | none => exact .declared (hd rfl) (.refl _ _)
      | some b => exact .present
  · rw [column_define_other h]
    exact .refl _ _

/-- A write reaches the first variable of the name only. -/
theorem sheltered_update (ss : Scopes α) {name other : String} {a : α} {d : Prop} :
    Sheltered d (ss.column other) ((ss.update name a).column other) := by
  by_cases h : other = name
  · subst h
    induction ss generalizing d with
    | nil => exact .nil
    | cons s rest ih =>
      simp only [update]
      split
      · rename_i hs
        obtain ⟨b, hb⟩ := Scope.has_iff.mp hs
        simp only [column, List.map_cons, Scope.lookup_put, if_true, hb]
        exact .present
      · rename_i hs
        have hnone : s.lookup other = none := by
          simpa only [Scope.has, Bool.not_eq_true, Option.isSome_eq_false_iff, Option.isNone_iff_eq_none] using hs
        simp only [column, List.map_cons, hnone]
        exact .absent ih
  · rw [column_update_other h]
    exact .refl _ _

theorem sheltered_drop {ss ts : Scopes α} {name : String} {d e : Prop}
    (h : Sheltered e (column ([] :: ss) name) (ts.column name)) :
    Sheltered d (ss.column name) (column (ts.drop 1) name) := by
  cases ts with
  | nil => cases h
  | cons t ts =>
    simp only [column, List.map_cons, List.lookup_nil, List.drop_succ_cons, List.drop_zero] at h ⊢
    generalize t.lookup name = b at h
    cases h with
    | absent h => exact h.mono False.elim
    | declared _ h => exact h.mono False.elim

theorem find?_eq_column (ss : Scopes α) (name : String) : ss.find? name = (ss.column name).findSome? id := by
  simp only [find?, column, List.findSome?_map]
  rfl

end Scopes
end Column

/-! ## Runs -/

/-- Runs change columns of names in no other way. -/
theorem frame_sheltered : Frame fun D ss ts => ∀ name, Column.Sheltered (D name) (ss.column name) (ts.column name) where
  refl := fun _ => .refl _ _
  trans h h' := fun name => (h name).trans (h' name)
  mono hD h := fun name => (h name).mono (hD name)
  write _ _ := fun _ => Scopes.sheltered_update _
  declare hn := fun _ => Scopes.sheltered_define _ fun he => he ▸ hn
  nest h := fun name => Scopes.sheltered_drop (h name)

theorem State.slot?_eq (s : State) (i : Nat) (name : String) :
    s.slot? i name = Column.at? (s.scopes.column name) i := by
  simp only [State.slot?, Scopes.at?, Column.at?, Scopes.column, ← List.map_reverse, List.getElem?_map]
  cases s.scopes.reverse[i]? <;> rfl

/-- How the scopes of a state may have changed, by their heights. `D` tells the names that may have been
declared in the innermost scope. -/
structure State.Nests (D : String → Prop) (s t : State) : Prop where
  height : t.scopes.length = s.scopes.length
  names (i : Nat) (name : String) :
    (t.slot? i name).isSome = (s.slot? i name).isSome ∨ (i + 1 = s.scopes.length ∧ D name)
  kept {i : Nat} {name : String} {slot : Slot} : s.slot? i name = some slot → ∃ slot', t.slot? i name = some slot'
  visible (name : String) : (t.scopes.find? name).isSome = (s.scopes.find? name).isSome ∨ D name
  shadowed {i j : Nat} {name : String} {slot : Slot} :
    i < j → s.slot? j name = some slot → t.slot? i name = s.slot? i name

namespace State

variable {D : String → Prop} {s t : State}

theorem nests_of_sheltered (h : ∀ name, Column.Sheltered (D name) (s.scopes.column name) (t.scopes.column name)) :
    s.Nests D t where
  height := by
    have hlength := (h "").length
    simpa [Scopes.column] using hlength
  names i name := by
    have hnames := (h name).names i
    simpa [slot?_eq, Scopes.column] using hnames
  kept {i name slot} hs := by
    rw [slot?_eq] at hs ⊢
    exact (h name).keeps hs
  visible name := by
    rw [Scopes.find?_eq_column, Scopes.find?_eq_column]
    exact (h name).first
  shadowed {i j name slot} hij hs := by
    rw [slot?_eq] at hs ⊢
    rw [slot?_eq]
    exact (h name).shadowed hij hs

end State

/-! ## Variables of loops and handlers -/

namespace Run

variable {α β : Type} {name : String}

/-- A computation that leaves all variables of a name that are there before it as they are. -/
def Spares (name : String) (x : Run α) : Prop := Moves (fun ss ts => ts.column name = ss.column name) x

theorem spares_iff {x : Run α} : Spares name x ↔ ∀ s : State,
    Ends x s (fun _ t => t.scopes.column name = s.scopes.column name)
      fun _ t => t.scopes.column name = s.scopes.column name := by
  constructor
  · intro h s
    exact ends_after.mpr (h s)
  · intro h s
    exact ends_after.mp (h s)

theorem Quiet.spares {x : Run α} (hx : Quiet x) : Spares name x := by
  intro s
  show (x.after s).scopes.column name = s.scopes.column name
  rw [(hx s).scopes]

theorem Spares.bind {x : Run α} {f : α → Run β} (hx : Spares name x) (hf : ∀ a, Spares name (f a)) :
    Spares name (x >>= f) := by
  rw [spares_iff] at hx ⊢
  intro s
  rw [ends_bind]
  refine (hx s).mono (fun a t ht => ?_) fun _ _ ht => ht
  have hfa := spares_iff.mp (hf a) t
  rwa [ht] at hfa

/-- A block whose first declaration is one of the name. What comes after it finds this variable. -/
theorem spares_block {v : Value} {x : Run Unit} {B : String → Prop} {P : Unit → Prop} (hx : Traces .any B x P) :
    Spares name (nested (do define name v; x)) := by
  rw [spares_iff]
  intro s
  simp only [ends_nested, ends_bind, ends_define]
  have hdrop : ∀ t : State, Column.Sheltered (B name) ((s.enter.declare name v).scopes.column name)
      (t.scopes.column name) → Scopes.column (t.scopes.drop 1) name = s.scopes.column name := by
    intro t ht
    simp only [State.enter, State.declare, Scopes.define, Scopes.column, List.map_cons, Scope.lookup_put, if_true] at ht
    rw [Scopes.column, List.map_drop]
    generalize List.map (fun scope => List.lookup name scope) t.scopes = ds at ht ⊢
    cases ht with
    | present => rfl
  refine (hx (s.enter.declare name v) (Licence.allNative_any _)).mono (fun _ t ht => ?_) fun _ t ht => ?_
  · exact hdrop t (frame_sheltered.trail ht.1 name)
  · exact hdrop t (frame_sheltered.trail ht name)

theorem spares_pass {line : Nat} {v : Value} {body : Run Unit} {B : String → Prop} {P : Unit → Prop}
    (hb : Traces .any B body P) : Spares name (pass line name v body) :=
  quiet_checkStop.spares.bind fun _ => spares_block (B := fun _ => False) hb.nested

theorem spares_eachValue {line : Nat} {body : List Value → Run Unit} {B : String → Prop} {P : Unit → Prop}
    (hb : ∀ rest, Traces .any B (body rest) P) (vs : List Value) : Spares name (eachValue line name body vs) := by
  induction vs with
  | nil => exact quiet_pure.spares
  | cons v rest ih => exact (spares_pass (hb rest)).bind fun _ => ih

theorem spares_eachInteger {line : Nat} {body : Run Unit} {B : String → Prop} {P : Unit → Prop}
    (hb : Traces .any B body P) (n : Nat) (i : Int64) : Spares name (eachInteger line name body n i) := by
  rw [eachInteger_eq_eachValue]
  exact spares_eachValue (fun _ => hb) _

theorem Spares.slot? {x : Run α} (hx : Spares name x) (s : State) (i : Nat) :
    (x.after s).slot? i name = s.slot? i name := by
  rw [State.slot?_eq, State.slot?_eq]
  exact congrArg (Column.at? · i) (hx s)

end Run

/-- However a script, a statement or a block ends, scopes have been closed as they were opened. A script
declares names of its own statements in the innermost scope, a statement only the name of a `let` that
succeeds, and an expression or a block nothing. Loops and handlers do not reach variables of the name that
they declare. -/
theorem Program.scopes_nest (s : State) (held : List Value) (passes : Nat) :
    (∀ p : Program, s.Nests (Activity.ProgramDeclares s passes p) ((p.exec passes).after s)) ∧
    (∀ st : Statement, s.Nests (fun n => n ∈ st.declared ∧ ∃ v t, st.exec held passes s = .ok v t)
      ((st.exec held passes).after s)) ∧
    (∀ sts, s.Nests (· ∈ Statement.declaredAll sts) ((Statement.execAll held passes sts).after s)) ∧
    (∀ sts, s.Nests (fun _ => False) ((nested (Statement.execAll held passes sts)).after s)) ∧
    (∀ e : Expr, s.Nests (fun _ => False) ((e.eval held).after s)) ∧
    (∀ line name sts n first i,
      ((eachInteger line name (Statement.execAll held passes sts) n first).after s).slot? i name = s.slot? i name) ∧
    (∀ line name sts vs i,
      ((eachValue line name (fun rest => Statement.execAll (rest ++ held) passes sts) vs).after s).slot? i name =
        s.slot? i name) ∧
    ∀ message sts i,
      ((nested (do define errorVariable (.literal message); Statement.execAll held passes sts)).after s).slot?
        i errorVariable = s.slot? i errorVariable := by
  have hblock : ∀ held sts, Traces .any _ (Statement.execAll held passes sts) fun _ => True :=
    fun held sts => Statement.traces_execAll held passes sts fun _ _ => trivial
  refine ⟨fun p => ?_, fun st => ?_, fun sts => ?_, fun sts => ?_, fun e => ?_, ?_, ?_, ?_⟩
  · exact State.nests_of_sheltered (Activity.frame_program frame_sheltered passes p s)
  · refine State.nests_of_sheltered fun name => ?_
    cases hx : st.exec held passes s with
    | ok v t =>
      have hst := frame_sheltered.exec held passes st s name
      simp only [after, hx] at hst ⊢
      exact hst.mono fun hn => ⟨hn, v, t, rfl⟩
    | error e t =>
      have hst := frame_sheltered.exec_error hx name
      simp only [after, hx]
      exact hst.mono False.elim
  · exact State.nests_of_sheltered (frame_sheltered.moves (hblock held sts) s)
  · exact State.nests_of_sheltered (frame_sheltered.moves (hblock held sts).nested s)
  · exact State.nests_of_sheltered (frame_sheltered.eval held e s)
  · intro line name sts n first i
    exact (spares_eachInteger (hblock held sts) n first).slot? s i
  · intro line name sts vs i
    exact (spares_eachValue (fun rest => hblock (rest ++ held) sts) vs).slot? s i
  · intro message sts i
    exact (spares_block (hblock held sts)).slot? s i

end Crunch
