import Crunch.Proofs.Trail

/-!
# Crunch.Proofs.Frame

How a run changes variables.

* `Frame`: relations between the variables before and after that writes, declarations of some names
  in the innermost scope, and scopes that are opened and closed again keep.
* `Frame.trail`: every trail stays within each such relation, and so do `Frame.eval` and `Frame.exec`,
  every expression and every statement, however it ends.
* `Frame.program`: a script that fails has declared the names of the statements before the failure.
* `Frame.all`, `Frame.related`: what holds of every variable, and how a variable changes.
-/

namespace Crunch

/-- Relations between variables before and after. `D` tells the names that may be declared in the
innermost scope. -/
structure Frame (R : (String → Prop) → Scopes Slot → Scopes Slot → Prop) : Prop where
  refl {D : String → Prop} {ss : Scopes Slot} : R D ss ss
  trans {D : String → Prop} {ss ts us : Scopes Slot} : R D ss ts → R D ts us → R D ss us
  mono {D D' : String → Prop} {ss ts : Scopes Slot} : (∀ n, D n → D' n) → R D ss ts → R D' ss ts
  write {D : String → Prop} {ss : Scopes Slot} {name : String} {slot slot' : Slot} :
    ss.find? name = some slot → slot.Writes slot' → R D ss (ss.update name slot')
  declare {D : String → Prop} {ss : Scopes Slot} {name : String} {v : Value} :
    D name → R D ss (ss.define name (Slot.ofValue v))
  nest {D D' : String → Prop} {ss ts : Scopes Slot} : R D' ([] :: ss) ts → R D ss (ts.drop 1)

/-- Whether the variables before and after a computation stand in a relation, however it ends. -/
def Run.Moves {α : Type} (R : Scopes Slot → Scopes Slot → Prop) (x : Run α) : Prop :=
  ∀ s, R s.scopes (x.after s).scopes

open Run

theorem Heap.scopes_swept (held : List Value) (s : State) : (swept held s).scopes = s.scopes := by
  unfold swept
  split <;> rfl

namespace Frame

variable {R : (String → Prop) → Scopes Slot → Scopes Slot → Prop} {D : String → Prop} {α : Type} {P : α → Prop}

theorem trail (hR : Frame R) {L : Licence} {s t : State} (h : Trail L D s t) : R D s.scopes t.scopes := by
  induction h with
  | refl => exact hR.refl
  | trans _ _ ih₁ ih₂ => exact hR.trans ih₁ ih₂
  | write _ hf hs => exact hR.write hf hs
  | declare hn => exact hR.declare hn
  | nest _ ih => exact hR.nest ih
  | sweep =>
    rw [Heap.scopes_swept]
    exact hR.refl
  | build _ => exact hR.refl
  | keep => exact hR.refl
  | busy _ ih => exact ih
  | aside hb =>
    rw [hb.scopes]
    exact hR.refl

theorem moves (hR : Frame R) {x : Run α} (hx : Traces .any D x P) : Moves (R D) x := by
  intro s
  have hends := hx s (Licence.allNative_any s)
  rw [← ends_after (P := fun t => R D s.scopes t.scopes)]
  exact hends.mono (fun _ _ h => hR.trail h.1) fun _ _ h => hR.trail h

theorem define (hR : Frame R) {name : String} {v : Value} (h : D name) : Moves (R D) (Run.define name v) :=
  hR.moves (traces_define h)

theorem store (hR : Frame R) {line : Nat} {name : String} {v : Value} : Moves (R D) (Run.store line name v) :=
  hR.moves (traces_store trivial)

theorem mutate (hR : Frame R) {line : Nat} {name : String} {m : Member} {args : List Value} :
    Moves (R D) (Run.mutate line name m args) := hR.moves (traces_mutate trivial)

theorem eval (hR : Frame R) (held : List Value) (e : Expr) : Moves (R D) (e.eval held) :=
  hR.moves (e.traces_eval held fun _ _ => trivial)

theorem exec (hR : Frame R) (held : List Value) (passes : Nat) (st : Statement) :
    Moves (R (· ∈ st.declared)) (st.exec held passes) :=
  hR.moves (st.traces_exec held passes fun _ _ => trivial)

/-- A statement that fails declares nothing. -/
theorem exec_error (hR : Frame R) {held : List Value} {passes : Nat} {st : Statement} {s t : State}
    {h : Halt Fault} (hx : st.exec held passes s = .error h t) : R (fun _ => False) s.scopes t.scopes :=
  hR.trail (Statement.trail_of_error (fun _ _ => trivial) (Licence.allNative_any s) hx)

/-- A script stays within the frame; one that fails has been carried out up to some statement. -/
theorem program (hR : Frame R) (passes : Nat) (p : Program) (s : State) :
    Ends (p.exec passes) s (fun _ t => R (· ∈ Statement.declaredAll p) s.scopes t.scopes)
      fun _ t => ∃ k v u, Program.exec passes (p.take k) s = .ok v u ∧
        R (· ∈ Statement.declaredAll (p.take k)) s.scopes t.scopes := by
  refine (Program.traces passes p (fun _ _ => trivial) s (Licence.allNative_any s)).mono (fun _ _ h => hR.trail h) ?_
  intro _ t h
  obtain ⟨k, v, u, hk, hp⟩ := h
  exact ⟨k, v, u, hk, hR.trail hp⟩

/-! ## Frames that look at one variable at a time -/

/-- What writes keep, and what new variables have, holds of every variable. -/
theorem all {p : Slot → Prop} (hw : ∀ {slot slot'}, slot.Writes slot' → p slot → p slot')
    (hd : ∀ v, p (Slot.ofValue v)) : Frame fun _ ss ts => ss.All p → ts.All p where
  refl h := h
  trans h h' := h' ∘ h
  mono _ h := h
  write hf hs h := h.update (hw hs (h.find hf))
  declare _ h := h.define (hd _)
  nest h hs := (h (.cons (by simp) hs)).drop

/-- How writes change a variable is how a run changes it. -/
theorem related {r : Option Slot → Option Slot → Prop} (hr : ∀ a, r a a)
    (ht : ∀ a b c, r a b → r b c → r a c) (hw : ∀ {slot slot'}, slot.Writes slot' → r (some slot) (some slot')) :
    Frame (Scopes.Related r) where
  refl := .refl hr _
  trans h h' := .trans ht h h'
  mono hd h := h.mono hd
  write hf hs := .update hr (hw hs) hf
  declare h := .define hr h
  nest h := h.drop

end Frame
end Crunch
