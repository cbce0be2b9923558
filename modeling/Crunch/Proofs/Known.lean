import Crunch.Pattern.Bundled
import Crunch.Proofs.Reach

/-!
# Crunch.Proofs.Known

Scripts that the check lets through never meet an unknown variable.

* `Scopes.Covered`: every name of some scopes is declared in others, scope by scope.
* `Env.Covered`: the variables that the check knows of are variables of the state.
* `Env.invariant_covered`: runs keep this, whichever blocks they enter and wherever errors end them.
* `Program.variables_known`: so no error is one of an unknown variable, whether a handler takes it or not.
-/

namespace Crunch

open Run

/-! ## Names of scopes -/

theorem Scope.has_put {α : Type} (s : Scope α) (name other : String) (a : α) :
    (s.put name a).has other = (decide (other = name) || s.has other) := by
  rw [Scope.has, lookup_put]
  split
  · rename_i h
    simp [h]
  · rename_i h
    simp [h, Scope.has]

theorem Scope.has_cons {α : Type} (q : String × α) (s : Scope α) (n : String) :
    Scope.has (q :: s) n = (decide (n = q.1) || s.has n) := by
  rw [Scope.has, List.lookup_cons]
  by_cases h : n = q.1
  · simp [h]
  · simp [h, beq_eq_false_iff_ne.mpr h, Scope.has]

theorem Scope.has_of_putAll {α : Type} {s seen : Scope α} {n : String}
    (h : (s.foldl (fun seen q => seen.put q.1 q.2) seen).has n = true) : seen.has n = true ∨ s.has n = true := by
  induction s generalizing seen with
  | nil => exact .inl h
  | cons q rest ih =>
    rw [has_cons, Bool.or_eq_true]
    rcases ih h with h | h
    · rw [has_put, Bool.or_eq_true] at h
      exact h.elim (fun h => .inr (.inl h)) .inl
    · exact .inr (.inr h)

namespace Scopes

variable {α β γ : Type} {name : String}

/-- Every name of some scopes is declared in the scope of others at the same height. -/
def Covered : Scopes α → Scopes β → Prop
  | [], [] => True
  | s :: ss, t :: ts => (∀ n, s.has n = true → t.has n = true) ∧ Covered ss ts
  | _, _ => False

theorem Covered.find {ss : Scopes α} {ts : Scopes β} {a : α} (h : Covered ss ts) (ha : ss.find? name = some a) :
    ∃ b, ts.find? name = some b := by
  induction ss generalizing ts with
  | nil => cases ha
  | cons s ss ih =>
    cases ts with
    | nil => exact h.elim
    | cons t ts =>
      rw [find?_cons, Option.or_eq_some_iff] at ha
      rw [find?_cons]
      cases ht : t.lookup name with
      | some b => exact ⟨b, rfl⟩
      | none =>
        rcases ha with ha | ⟨-, ha⟩
        · obtain ⟨b, hb⟩ := Scope.has_iff.mp (h.1 name (Scope.has_iff.mpr ⟨a, ha⟩))
          rw [ht] at hb
          cases hb
        · exact ih h.2 ha

theorem Covered.enter {ss : Scopes α} {ts : Scopes β} (h : Covered ss ts) : Covered ([] :: ss) ([] :: ts) :=
  ⟨nofun, h⟩

theorem Covered.drop {ss : Scopes α} {ts : Scopes β} (h : Covered ss ts) : Covered (ss.drop 1) (ts.drop 1) := by
  cases ss <;> cases ts <;> first | exact h.elim | exact trivial | exact h.2

theorem Covered.define {ss : Scopes α} {ts : Scopes β} {a : α} {b : β} (h : Covered ss ts) :
    Covered (ss.define name a) (ts.define name b) := by
  cases ss with
  | nil =>
    cases ts with
    | nil => trivial
    | cons t ts => exact h.elim
  | cons s ss =>
    cases ts with
    | nil => exact h.elim
    | cons t ts =>
      refine ⟨fun n hn => ?_, h.2⟩
      rw [Scope.has_put, Bool.or_eq_true] at hn ⊢
      exact hn.imp id (h.1 n)

theorem Covered.update {ss : Scopes α} {ts : Scopes β} {b : β} (h : Covered ss ts) : Covered ss (ts.update name b) := by
  induction ss generalizing ts with
  | nil =>
    cases ts with
    | nil => trivial
    | cons t ts => exact h.elim
  | cons s ss ih =>
    cases ts with
    | nil => exact h.elim
    | cons t ts =>
      simp only [Scopes.update]
      split
      · refine ⟨fun n hn => ?_, h.2⟩
        rw [Scope.has_put, h.1 n hn, Bool.or_true]
      · exact ⟨h.1, ih h.2⟩

theorem covered_map {f : α → γ} {ss : Scopes α} {ts : Scopes β} : Covered (ss.map f) ts ↔ Covered ss ts := by
  induction ss generalizing ts with
  | nil => cases ts <;> rfl
  | cons s ss ih =>
    cases ts with
    | nil => rfl
    | cons t ts =>
      have hm : map f (s :: ss) = (s.map fun q => (q.1, f q.2)) :: map f ss := rfl
      rw [hm]
      simp only [Covered, has_map, ih]

/-- The declarations of one scope, as one scope, are no others. -/
theorem has_visible {s : Scope α} {n : String} (h : (visible [s]).has n = true) : s.has n = true :=
  (Scope.has_of_putAll h).resolve_left nofun

end Scopes

/-! ## Variables of a run -/

/-- Whether a variable of some name is not known. -/
def Fault.Cause.IsUnknownVariable (c : Fault.Cause) : Prop := ∃ name, c = .unknownVariable name

theorem Fault.Cause.IsUnknownVariable.isUnknown (c : Fault.Cause) (h : c.IsUnknownVariable) : c.isUnknown = true := by
  obtain ⟨name, rfl⟩ := h
  rfl

/-- The variables that the check knows of are variables of a state, whose native types keep to their
arguments. -/
structure Env.Covered (env : Env) (s : State) : Prop where
  names : env.scopes.Covered s.scopes
  tame : s.Tame Fault.Cause.IsUnknownVariable

theorem Env.invariant_covered : Invariant False Fault.Cause.IsUnknownVariable Env.Covered where
  unknown := Fault.Cause.IsUnknownVariable.isUnknown _
  tame h := h.tame
  congr h hs _ _ ht := ⟨hs ▸ h.names, ht⟩
  like hl h := by
    refine ⟨?_, h.tame⟩
    rw [← Scopes.covered_map, ← hl.names]
    exact Scopes.covered_map.mpr h.names
  known h _ hf := h.names.find hf
  callee _ _ _ _ hc := by
    obtain ⟨name, hc⟩ := hc
    cases hc
  write h _ := ⟨h.names.update, h.tame.types, h.tame.objects⟩
  declare h := ⟨h.names.define, h.tame.types, h.tame.objects⟩
  enter h := ⟨h.names.enter, h.tame.types, h.tame.objects⟩
  leave h := ⟨h.names.drop, h.tame.types, h.tame.objects⟩
  load h hl := by
    -- An import that fails is no error of a variable, and one that succeeds leaves the scopes alone.
    obtain ⟨-, rfl⟩ := Env.importType_ok hl
    simp only [Run.importType, ends_bind, ends_get]
    split
    · refine ⟨h, fun hb => ?_⟩
      obtain ⟨name, hb⟩ := hb
      cases hb
    · exact ⟨h.names, h.tame.types, h.tame.objects⟩

theorem Session.covered {s : State} (hs : s.scopes.length = 1) (ht : s.Tame Fault.Cause.IsUnknownVariable) :
    (Session.env s).Covered s := by
  refine ⟨?_, ht⟩
  -- The check starts from one scope with all visible names, so the state must have only one as well.
  obtain ⟨scope, hscope⟩ := List.length_eq_one_iff.mp hs
  rw [hscope]
  refine ⟨fun n hn => ?_, trivial⟩
  rw [State.declaredTypes, hscope, Scopes.has_map] at hn
  exact Scopes.has_visible hn

/-- A script that the check lets through on a state with one scope, whose native types touch variables
only through their arguments, never fails for an unknown variable. Neither does any part of its run,
whether a handler takes the error or not. To touch a variable includes to report it as unknown, so a
method does that only where a store through an argument, or a method that it calls, has done so. -/
theorem Program.variables_known {s : State} {p : Program} {env : Env} (hs : s.scopes.length = 1)
    (ht : s.Tame Fault.Cause.IsUnknownVariable) (h : p.check (Session.env s) = .ok env) :
    (∀ passes e t, p.exec passes s = .error e t → e.Avoids Fault.Cause.IsUnknownVariable) ∧
      ∀ q, Point.Within ⟨Session.env s, .block p, s⟩ q → q.Avoids Fault.Cause.IsUnknownVariable := by
  have hfit := Session.covered hs ht
  have hI := Env.invariant_covered
  refine ⟨fun passes e t hx => ?_, fun q hq => ?_⟩
  · exact (ends_of_error hx).mp (hI.execFrom h nofun hfit)
  · obtain ⟨hq, hchecked⟩ := hI.within hq hfit ⟨⟨env, h⟩, nofun⟩
    exact hI.point hq hchecked

/-- A division by zero ends a block after its first declaration, and the handler reads a variable of
an earlier script and the message. -/
theorem Program.variables_known_handled :
    let body : List Statement :=
      [.declare 2 "x" (.var 2 "n"),
        .declare 3 "y" (.binary 3 .div (.var 3 "x") (.constant 3 (.integer 0)))]
    let handler : List Statement :=
      [.assign 5 "n" (.binary 5 .add (.var 5 "n") (.constant 5 (.integer 1))), .expression 6 (.var 6 "error")]
    let p : Program := [.attempt 1 body [⟨"others", 4, handler⟩]]
    let s : State := (State.fresh .bundled ⟨[], 0, []⟩ [] ⟨[], []⟩).declare "n" (.integer 7)
    let q : Point := ⟨(Session.env s).handling, .block handler,
      s.enter.declare errorVariable (.literal "Error on line 3: Division by zero.")⟩
    s.scopes.length = 1 ∧ s.Tame Fault.Cause.IsUnknownVariable ∧ (∃ env, p.check (Session.env s) = .ok env) ∧
      Point.Within ⟨Session.env s, .block p, s⟩ q ∧ q.Avoids Fault.Cause.IsUnknownVariable := by
  intro body handler p s q
  have hfresh := State.tame_fresh Fault.Cause.IsUnknownVariable.isUnknown .bundled ⟨[], 0, []⟩ [] ⟨[], []⟩
  have ht : s.Tame Fault.Cause.IsUnknownVariable := ⟨hfresh.types, hfresh.objects⟩
  have hcheck : ∃ env, p.check (Session.env s) = .ok env := ⟨_, rfl⟩
  have hfails : failure? (nested (Statement.execAll [] 0 body)) s = .ok (some ⟨3, .divideByZero⟩) s := rfl
  have hbody : ∃ env, Statement.checkAll (Session.env s).enter body = .ok env ∧ env.leave = Session.env s :=
    ⟨_, rfl, rfl⟩
  obtain ⟨env₁, hb, hl⟩ := hbody
  have hhandlers : Point.Within ⟨Session.env s, .block p, s⟩
      ⟨env₁.leave, .handlers (Fault.message ⟨3, .divideByZero⟩) [⟨"others", 4, handler⟩], s⟩ :=
    (Point.Within.refl.step .head).step (.caught hfails hb)
  rw [hl] at hhandlers
  have hwithin : Point.Within ⟨Session.env s, .block p, s⟩ q := hhandlers.step .handler
  obtain ⟨env, h⟩ := hcheck
  exact ⟨rfl, ht, ⟨env, h⟩, hwithin, (Program.variables_known rfl ht h).2 q hwithin⟩

end Crunch
