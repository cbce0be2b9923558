import Crunch.Pattern.Bundled
import Crunch.Proofs.Frame
import Crunch.Proofs.Method
import Crunch.Proofs.Slot
import Crunch.Session

/-!
# Crunch.Proofs.Typed

Variables with a type keep it.

* `Slot.Sound`: the value of a typed variable has its type.
* `Slot.Writes.sound`, `Slot.Writes.type`: a write keeps a variable sound, and its type.
* `Activity`: what a host does with a state, and what a running script does on the way.
* `Activity.Renews`: the activities that end the life of a variable: its scope is closed, or its
  name is declared anew in this scope.
* `Activity.typed_variables`: in every state that activities lead to, variables are sound, and each
  typed one has its type until an activity renews it.
-/

namespace Crunch

namespace Slot

/-- The value of a typed variable has this type. A number type that carries fields or a name is the
one exception: a number that is stored there has only its kind. -/
def Sound (slot : Slot) : Prop :=
  slot.type.kind ≠ .noType → slot.value.type = slot.type ∨
    (slot.type.isExact = false ∧ slot.value.type = Ty.scalar slot.type.kind)

theorem sound_ofValue (v : Value) : (ofValue v).Sound := fun _ => .inl rfl

/-- A variable without a type that gets one gets it from its value. -/
theorem sound_withValue {slot : Slot} (h : slot.type.kind = .noType) (w : Value) : (slot.withValue w).Sound :=
  fun hk => .inl (adopt_of_noType h hk).symm

/-- What is converted to the type of a variable. -/
theorem type_of_coerce {t : Ty} {v w : Value} (h : v.coerce t = .ok w) (hk : t.kind ≠ .noType) :
    w.type = t ∨ (t.isExact = false ∧ w.type = Ty.scalar t.kind) :=
  Value.type_of_coerce_cases h (by simp [Ty.isUntyped, hk])

theorem Writes.type {slot slot' : Slot} (h : slot.Writes slot') (hk : slot.type.kind ≠ .noType) :
    slot'.type = slot.type := by
  cases h with
  | store hst =>
    obtain ⟨w, -, rfl⟩ := value_of_store hst
    exact adopt_of_kind hk _
  | mutate hm => exact adopt_of_kind hk _
  | spoil hm => rfl

theorem Writes.sound {slot slot' : Slot} (h : slot.Writes slot') (hs : slot.Sound) : slot'.Sound := by
  by_cases hk : slot.type.kind = .noType
  · cases h with
    | store hst =>
      obtain ⟨w, -, rfl⟩ := value_of_store hst
      exact sound_withValue hk w
    | mutate hm => exact sound_withValue hk _
    | spoil hm => exact fun hk' => absurd hk hk'
  · have ht := h.type hk
    intro _
    rw [ht]
    -- what a method leaves is of the type that the value had
    have keep : ∀ {m args w o}, slot.value.mutate m args = (w, o) → w.type = slot.value.type := by
      intro m args w o hm
      have hv : slot.value.type.kind ≠ .noType := by
        rcases hs hk with he | ⟨-, he⟩
        · exact he ▸ hk
        · rw [he]
          exact hk
      have := Value.type_mutate hv m args
      rwa [hm] at this
    cases h with
    | store hst =>
      obtain ⟨w, hv, rfl⟩ := value_of_store hst
      exact type_of_coerce hv hk
    | mutate hm =>
      rw [show (slot.withValue _).value.type = slot.value.type from keep hm]
      exact hs hk
    | spoil hm =>
      rw [show Value.type _ = slot.value.type from keep hm]
      exact hs hk

/-- A typed variable is still there, with its type. -/
def Keeps (before after : Option Slot) : Prop :=
  ∀ slot, before = some slot → slot.type.kind ≠ .noType → ∃ slot', after = some slot' ∧ slot'.type = slot.type

theorem Keeps.refl (a : Option Slot) : Keeps a a := fun slot h _ => ⟨slot, h, rfl⟩

theorem Keeps.trans (a b c : Option Slot) (h : Keeps a b) (h' : Keeps b c) : Keeps a c := by
  intro slot ha hk
  obtain ⟨slot', hb, ht⟩ := h slot ha hk
  obtain ⟨slot'', hc, ht'⟩ := h' slot' hb (ht ▸ hk)
  exact ⟨slot'', hc, ht'.trans ht⟩

end Slot

/-- Runs leave variables sound. -/
theorem frame_sound : Frame fun _ ss ts => ss.All Slot.Sound → ts.All Slot.Sound :=
  Frame.all Slot.Writes.sound Slot.sound_ofValue

/-- Runs leave typed variables their types. -/
theorem frame_keeps : Frame (Scopes.Related Slot.Keeps) :=
  Frame.related Slot.Keeps.refl Slot.Keeps.trans fun hw slot hs hk => by
    cases hs
    exact ⟨_, rfl, hw.type hk⟩

/-- The variable of a name in the scope at a height. -/
def State.slot? (s : State) (height : Nat) (name : String) : Option Slot :=
  (s.scopes.at? height).bind (·.lookup name)

/-- A step gives up objects after the computation that it makes. -/
theorem Session.step_snd {α : Type} (x : Run α) (s : State) : (step x s).2 = Heap.swept [] (x.after s) := by
  unfold step Run.after
  cases x s with
  | ok a t => rfl
  | error h t => rfl

/-- What a host does with a state, and what a running script does on the way. -/
inductive Activity where
  /-- Runs a source text, with or without the check. -/
  | script (checked : Bool) (passes : Nat) (source : String)
  /-- Carries out a script that has been parsed. -/
  | program (passes : Nat) (p : Program)
  | define (name : String) (v : Value)
  | store (line : Nat) (name : String) (v : Value)
  /-- Evaluates an expression, in a script that keeps some values in use. -/
  | evaluate (held : List Value) (e : Expr)
  /-- Carries out a statement of a block. -/
  | carryOut (held : List Value) (passes : Nat) (st : Statement)
  /-- Declares the variable of a loop or of a handler. -/
  | declare (name : String) (v : Value)
  | assign (line : Nat) (name : String) (v : Value)
  | mutate (line : Nat) (name : String) (m : Member) (args : List Value)
  /-- Opens a scope. -/
  | enter
  /-- Closes the innermost scope. -/
  | leave
  /-- Changes something else, such as the native types, the objects or the input. -/
  | other (f : State → State) (still : ∀ s, (f s).scopes = s.scopes)

namespace Activity

/-- The state after an activity, which may have failed at any point. -/
def after (s : State) : Activity → State
  | .script true passes source => (Session.run passes source s).2
  | .script false passes source => (Session.exec passes source s).2
  | .program passes p => (p.exec passes).after s
  | .define name v => Session.define name v s
  | .store line name v => (Session.store line name v s).2
  | .evaluate held e => (e.eval held).after s
  | .carryOut held passes st => (st.exec held passes).after s
  | .declare name v => (Run.define name v).after s
  | .assign line name v => (Run.store line name v).after s
  | .mutate line name m args => (Run.mutate line name m args).after s
  | .enter => { s with scopes := [] :: s.scopes }
  | .leave => { s with scopes := s.scopes.drop 1 }
  | .other f _ => f s

/-- Whether a script declares a name with one of the top-level statements that it gets through. -/
def ProgramDeclares (s : State) (passes : Nat) (p : Program) (name : String) : Prop :=
  ∃ k v t, Program.exec passes (p.take k) s = .ok v t ∧ name ∈ Statement.declaredAll (p.take k)

/-- Whether an activity declares a name in the innermost scope. -/
def Declares (s : State) (name : String) : Activity → Prop
  | .script checked passes source => ∃ p, Session.parse source = .ok p ∧
      (checked = true → ∃ env, p.check (Session.env s) = .ok env) ∧ ProgramDeclares s passes p name
  | .program passes p => ProgramDeclares s passes p name
  | .carryOut held passes st => name ∈ st.declared ∧ ∃ v t, st.exec held passes s = .ok v t
  | .define n _ | .declare n _ => n = name
  | _ => False

/-- Whether an activity closes the innermost scope. -/
def Closes : Activity → Prop
  | .leave => True
  | _ => False

/-- Whether an activity ends the life of the variable of a name in the scope at a height. -/
def Renews (s : State) (height : Nat) (name : String) (a : Activity) : Prop :=
  height + 1 = s.scopes.length ∧ (a.Closes ∨ a.Declares s name)

/-- The state after several activities. -/
def afterAll (s : State) (as : List Activity) : State := as.foldl after s

theorem scopes_step {α : Type} (x : Run α) (s : State) : (Session.step x s).2.scopes = (x.after s).scopes := by
  rw [Session.step_snd, Heap.scopes_swept]

/-- A source text that is rejected leaves the state as it was. -/
theorem after_script (checked : Bool) (passes : Nat) (source : String) (s : State) :
    (script checked passes source).after s = s ∨
      ∃ p, Session.parse source = .ok p ∧ (checked = true → ∃ env, p.check (Session.env s) = .ok env) ∧
        (script checked passes source).after s = (Session.step (p.exec passes) s).2 := by
  cases hp : Session.parse source with
  | error f => cases checked <;> simp only [after, Session.run, Session.exec, hp, true_or]
  | ok p =>
    cases checked with
    | false =>
      refine .inr ⟨p, rfl, nofun, ?_⟩
      simp only [after, Session.exec, hp]
    | true =>
      simp only [after, Session.run, hp]
      cases hc : p.check (Session.env s) with
      | error r => exact .inl rfl
      | ok env => exact .inr ⟨p, rfl, fun _ => ⟨env, hc⟩, rfl⟩

/-- Whether an activity opens or closes a scope. -/
def IsBracket : Activity → Prop
  | .enter | .leave => True
  | _ => False

theorem frame_program {R : (String → Prop) → Scopes Slot → Scopes Slot → Prop} (hR : Frame R)
    (passes : Nat) (p : Program) (s : State) :
    R (ProgramDeclares s passes p) s.scopes ((p.exec passes).after s).scopes := by
  have h := hR.program passes p s
  cases hx : p.exec passes s with
  | ok v t =>
    rw [Run.ends_of_ok hx] at h
    simp only [Run.after, hx]
    exact hR.mono (fun n hn => ⟨p.length, v, t, by rwa [List.take_length], by rwa [List.take_length]⟩) h
  | error e t =>
    rw [Run.ends_of_error hx] at h
    obtain ⟨k, v, u, hk, h⟩ := h
    simp only [Run.after, hx]
    exact hR.mono (fun n hn => ⟨k, v, u, hk, hn⟩) h

theorem frame_script {R : (String → Prop) → Scopes Slot → Scopes Slot → Prop} (hR : Frame R)
    (checked : Bool) (passes : Nat) (source : String) (s : State) :
    R (Declares s · (.script checked passes source)) s.scopes ((script checked passes source).after s).scopes := by
  rcases after_script checked passes source s with h | ⟨p, hp, hc, h⟩
  · rw [h]
    exact hR.refl
  · rw [h, scopes_step]
    exact hR.mono (fun n hn => ⟨p, hp, hc, hn⟩) (frame_program hR passes p s)

/-- What activities other than opening and closing a scope do to the variables. -/
theorem frame_after {R : (String → Prop) → Scopes Slot → Scopes Slot → Prop} (hR : Frame R)
    (s : State) {a : Activity} (h : ¬a.IsBracket) : R (Declares s · a) s.scopes (a.after s).scopes := by
  cases a with
  | script checked passes source => exact frame_script hR checked passes source s
  | program passes p => exact frame_program hR passes p s
  | define name v =>
    simp only [after, Session.define, scopes_step]
    exact hR.define (D := fun n => name = n) rfl s
  | store line name v =>
    simp only [after, Session.store, scopes_step]
    exact hR.store s
  | evaluate held e => exact hR.eval held e s
  | carryOut held passes st =>
    cases hx : st.exec held passes s with
    | ok v t =>
      have := hR.exec held passes st s
      simp only [after, Run.after, hx] at this ⊢
      exact hR.mono (fun n hn => ⟨hn, v, t, hx⟩) this
    | error e t =>
      simp only [after, Run.after, hx]
      exact hR.mono (fun _ => False.elim) (hR.exec_error hx)
  | declare name v => exact hR.define (D := fun n => name = n) rfl s
  | assign line name v => exact hR.store s
  | mutate line name m args => exact hR.mutate s
  | enter => exact absurd trivial h
  | leave => exact absurd trivial h
  | other f still =>
    simp only [after, still]
    exact hR.refl

/-- What runs keep of all variables, activities keep of them. -/
theorem after_all {p : Slot → Prop} (hR : Frame fun _ ss ts => ss.All p → ts.All p) {s : State}
    (h : s.scopes.All p) (a : Activity) : (a.after s).scopes.All p := by
  by_cases hb : a.IsBracket
  · cases a with
    | enter => exact .cons (by simp) h
    | leave => exact h.drop
    | _ => exact hb.elim
  · exact frame_after hR s hb h

theorem afterAll_all {p : Slot → Prop} (hR : Frame fun _ ss ts => ss.All p → ts.All p) {s : State}
    (h : s.scopes.All p) (as : List Activity) : (afterAll s as).scopes.All p := by
  induction as generalizing s with
  | nil => exact h
  | cons a as ih => exact ih (after_all hR h a)

theorem all_fresh (p : Slot → Prop) (engine : Pattern.Engine) (random : Random) (input : List UInt8) (disk : Disk) :
    (State.fresh engine random input disk).scopes.All p := by
  simp [State.fresh, Scopes.All]

theorem after_keeps {s : State} {a : Activity} {i : Nat} {name : String} {slot : Slot}
    (h : s.slot? i name = some slot) (hk : slot.type.kind ≠ .noType) :
    a.Renews s i name ∨ ∃ slot', (a.after s).slot? i name = some slot' ∧ slot'.type = slot.type := by
  obtain ⟨scope, hi, hl⟩ := Option.bind_eq_some_iff.mp h
  have hlt : i < s.scopes.length := by
    have := (List.getElem?_eq_some_iff.mp hi).1
    simpa using this
  by_cases hb : a.IsBracket
  · cases a with
    | enter =>
      refine .inr ⟨slot, ?_, rfl⟩
      simp only [after, State.slot?, Scopes.at?, List.reverse_cons]
      rw [List.getElem?_append_left (by simpa using hlt)]
      exact h
    | leave =>
      by_cases he : i + 1 = s.scopes.length
      · exact .inl ⟨he, .inl trivial⟩
      · refine .inr ⟨slot, ?_, rfl⟩
        cases hs : s.scopes with
        | nil => simp [hs] at hlt
        | cons t ts =>
          simp only [hs, List.length_cons] at he hlt
          simp only [State.slot?, Scopes.at?, hs, List.reverse_cons] at h
          rw [List.getElem?_append_left (by simp; omega)] at h
          simpa only [after, State.slot?, Scopes.at?, hs, List.drop_succ_cons, List.drop_zero] using h
    | _ => exact hb.elim
  · obtain ⟨scope', hi', hr⟩ := (frame_after frame_keeps s hb).at? hi
    rcases hr name with ⟨hlen, hd⟩ | hr
    · exact .inl ⟨hlen, .inr hd⟩
    · obtain ⟨slot', hl', ht⟩ := hr slot hl hk
      exact .inr ⟨slot', by simp only [State.slot?, hi', Option.bind_some, hl'], ht⟩

theorem afterAll_keeps {s : State} {i : Nat} {name : String} {slot : Slot} (as : List Activity)
    (h : s.slot? i name = some slot) (hk : slot.type.kind ≠ .noType) :
    (∃ done a rest, as = done ++ a :: rest ∧ a.Renews (afterAll s done) i name) ∨
      ∃ slot', (afterAll s as).slot? i name = some slot' ∧ slot'.type = slot.type := by
  induction as generalizing s slot with
  | nil => exact .inr ⟨slot, h, rfl⟩
  | cons a as ih =>
    rcases after_keeps (a := a) h hk with hr | ⟨slot', h', ht⟩
    · exact .inl ⟨[], a, as, rfl, hr⟩
    · rcases ih h' (ht ▸ hk) with ⟨done, b, rest, rfl, hr⟩ | ⟨slot'', h'', ht'⟩
      · exact .inl ⟨a :: done, b, rest, rfl, hr⟩
      · exact .inr ⟨slot'', h'', ht'.trans ht⟩

theorem sound_of_slot? {s : State} (h : s.scopes.All Slot.Sound) {i : Nat} {name : String} {slot : Slot}
    (hs : s.slot? i name = some slot) : slot.Sound := by
  obtain ⟨scope, hi, hl⟩ := Option.bind_eq_some_iff.mp hs
  exact h scope (List.mem_reverse.mp (List.mem_of_getElem? hi)) _ (Scope.mem_of_lookup hl)

/-- A state that nothing has been read from yet. -/
def start : State := State.fresh .bundled ⟨[], 0, []⟩ [] ⟨[], []⟩

/-- A null of a number type that carries a field makes a variable of this type. The number that is
stored there is a plain one. -/
theorem number_with_fields_strays :
    ∃ slot, (afterAll start
        [.define "x" (.null (.row .integer 0 [Ty.integer])), .store 1 "x" (.integer 1)]).slot? 0 "x" = some slot ∧
      slot.type.kind ≠ .noType ∧ slot.value.type ≠ slot.type :=
  ⟨⟨.row .integer 0 [Ty.integer], .integer 1⟩, rfl, nofun, nofun⟩

/-- In every state that activities lead to from the start, variables are sound. A typed one is there
with its type after all further activities, unless one of them has renewed it. -/
theorem typed_variables (engine : Pattern.Engine) (random : Random) (input : List UInt8) (disk : Disk)
    (before as : List Activity) (i : Nat) (name : String) (slot : Slot)
    (h : (afterAll (State.fresh engine random input disk) before).slot? i name = some slot) :
    slot.Sound ∧ (slot.type.kind ≠ .noType →
      (∃ done a rest, as = done ++ a :: rest ∧
        a.Renews (afterAll (State.fresh engine random input disk) (before ++ done)) i name) ∨
      ∃ slot', (afterAll (State.fresh engine random input disk) (before ++ as)).slot? i name = some slot' ∧
        slot'.type = slot.type) := by
  have hsound := afterAll_all frame_sound (all_fresh _ engine random input disk) before
  refine ⟨sound_of_slot? hsound h, fun hk => ?_⟩
  simp only [afterAll, List.foldl_append]
  exact afterAll_keeps as h hk

/-- A variable outside of a block that declares its name keeps its type. -/
theorem typed_variables_shadowed :
    (afterAll start [.define "x" (.integer 1)]).slot? 0 "x" = some ⟨Ty.integer, .integer 1⟩ ∧
      Slot.Sound ⟨Ty.integer, .integer 1⟩ ∧
      ∃ slot, (afterAll start ([.define "x" (.integer 1)] ++
        [.enter, .declare "x" (.literal "inner"), .leave])).slot? 0 "x" = some slot ∧ slot.type = Ty.integer := by
  have h := typed_variables .bundled ⟨[], 0, []⟩ [] ⟨[], []⟩ [.define "x" (.integer 1)]
    [.enter, .declare "x" (.literal "inner"), .leave] 0 "x" ⟨Ty.integer, .integer 1⟩ rfl
  refine ⟨rfl, h.1, ?_⟩
  rcases h.2 nofun with ⟨done, a, rest, he, hlen, hr⟩ | hk
  · rcases done with _ | ⟨b, _ | ⟨c, _ | ⟨d, done⟩⟩⟩
    · cases he
      exact hr.elim False.elim False.elim
    · cases he
      cases hlen
    · cases he
      cases hlen
    · simp at he
  · exact hk

end Activity
end Crunch
