import Crunch.Exec

/-!
# Crunch.Proofs.Run

Computations on a state, by what holds when they end.

* `Run.Ends x s Q E`: from the state `s`, the computation ends with a result and a state in `Q`, or
  with an error and a state in `E`.
* `Run.ends_bind` and the like: one rule for each way to build a computation.
* `Run.after`: the state that a computation leaves, whether it fails or not.
* `Run.eachInteger_eq_eachValue`: a loop over integers is one over values.
-/

namespace Crunch
namespace Run

variable {α β : Type} {s : State} {Q Q' : α → State → Prop} {E E' : Halt Fault → State → Prop}

/-- What holds at the end: `Q` of a result and its state, `E` of an error and its state. -/
def Ends (x : Run α) (s : State) (Q : α → State → Prop) (E : Halt Fault → State → Prop) : Prop :=
  match x s with
  | .ok a t => Q a t
  | .error h t => E h t

/-- The state at the end. -/
def after (x : Run α) (s : State) : State :=
  match x s with
  | .ok _ t | .error _ t => t

theorem ends_of_ok {x : Run α} {a : α} {t : State} (h : x s = .ok a t) : Ends x s Q E ↔ Q a t := by
  simp [Ends, h]

theorem ends_of_error {x : Run α} {e : Halt Fault} {t : State} (h : x s = .error e t) :
    Ends x s Q E ↔ E e t := by
  simp [Ends, h]

theorem bind_of_ok {x : Run α} {f : α → Run β} {a : α} {t : State} (h : x s = .ok a t) :
    (x >>= f) s = f a t := by
  change EStateM.bind x f s = f a t
  simp only [EStateM.bind, h]

theorem bind_of_error {x : Run α} {f : α → Run β} {e : Halt Fault} {t : State} (h : x s = .error e t) :
    (x >>= f) s = .error e t := by
  change EStateM.bind x f s = .error e t
  simp only [EStateM.bind, h]

theorem bind_eq_of_eq {x y : Run α} {f : α → Run β} (h : x s = y s) : (x >>= f) s = (y >>= f) s := by
  change EStateM.bind x f s = EStateM.bind y f s
  rw [EStateM.bind, h, EStateM.bind]

theorem get_bind (f : State → Run β) (s : State) : ((get : Run State) >>= f) s = f s s := rfl

/-- A computation in two parts that succeeds has two parts that do. -/
theorem ok_of_bind {x : Run α} {f : α → Run β} {b : β} {u : State} (h : (x >>= f) s = .ok b u) :
    ∃ a t, x s = .ok a t ∧ f a t = .ok b u := by
  change EStateM.bind x f s = .ok b u at h
  simp only [EStateM.bind] at h
  split at h
  · rename_i a t hx
    exact ⟨a, t, hx, h⟩
  · cases h

theorem after_of_ok {x : Run α} {a : α} {t : State} (h : x s = .ok a t) : x.after s = t := by
  simp only [after, h]

theorem after_of_error {x : Run α} {e : Halt Fault} {t : State} (h : x s = .error e t) : x.after s = t := by
  simp only [after, h]

/-- What holds at the end of any run holds of the state that it leaves. -/
theorem ends_after {x : Run α} {P : State → Prop} :
    Ends x s (fun _ t => P t) (fun _ t => P t) ↔ P (x.after s) := by
  unfold Ends after
  cases x s <;> rfl

theorem Ends.mono {x : Run α} (h : Ends x s Q E) (hq : ∀ a t, Q a t → Q' a t)
    (he : ∀ e t, E e t → E' e t) : Ends x s Q' E' := by
  unfold Ends at h ⊢
  cases hx : x s with
  | ok a t => rw [hx] at h; exact hq a t h
  | error e t => rw [hx] at h; exact he e t h

theorem ends_of_forall {x : Run α} (hq : ∀ a t, Q a t) (he : ∀ e t, E e t) : Ends x s Q E := by
  unfold Ends
  cases x s with
  | ok a t => exact hq a t
  | error e t => exact he e t

/-- A computation that does not fail. -/
theorem ok_of_ends {x : Run α} {a : α} {P : State → Prop} (h : Ends x s (fun b t => b = a ∧ P t) fun _ _ => False) :
    ∃ t, x s = .ok a t ∧ P t := by
  unfold Ends at h
  split at h
  · rename_i b t hx
    obtain ⟨rfl, ht⟩ := h
    exact ⟨t, hx, ht⟩
  · exact h.elim

/-- A computation that fails. -/
theorem error_of_ends {x : Run α} {e : Halt Fault} {P : State → Prop}
    (h : Ends x s (fun _ _ => False) fun e' t => e' = e ∧ P t) : ∃ t, x s = .error e t ∧ P t := by
  unfold Ends at h
  split at h
  · exact h.elim
  · rename_i e' t hx
    obtain ⟨rfl, ht⟩ := h
    exact ⟨t, hx, ht⟩

/-! ## One rule for each construct -/

@[simp] theorem ends_pure {a : α} : Ends (pure a) s Q E ↔ Q a s := Iff.rfl

@[simp] theorem ends_throw {e : Halt Fault} : Ends (throw e : Run α) s Q E ↔ E e s := Iff.rfl

@[simp] theorem ends_fail {line : Nat} {c : Fault.Cause} :
    Ends (fail line c : Run α) s Q E ↔ E (.error ⟨line, c⟩) s := Iff.rfl

@[simp] theorem ends_get {Q : State → State → Prop} : Ends (get : Run State) s Q E ↔ Q s s := Iff.rfl

@[simp] theorem ends_set {t : State} {Q : PUnit → State → Prop} :
    Ends (set t : Run PUnit) s Q E ↔ Q ⟨⟩ t := Iff.rfl

@[simp] theorem ends_modify {f : State → State} {Q : PUnit → State → Prop} :
    Ends (modify f : Run PUnit) s Q E ↔ Q ⟨⟩ (f s) := Iff.rfl

@[simp] theorem ends_bind {x : Run α} {f : α → Run β} {Q : β → State → Prop} :
    Ends (x >>= f) s Q E ↔ Ends x s (fun a t => Ends (f a) t Q E) E := by
  simp only [Ends, bind, EStateM.bind]
  cases x s <;> rfl

@[simp] theorem ends_map {x : Run α} {f : α → β} {Q : β → State → Prop} :
    Ends (f <$> x) s Q E ↔ Ends x s (fun a t => Q (f a) t) E := by
  simp only [Ends, Functor.map, EStateM.map]
  cases x s <;> rfl

theorem ends_lift {line : Nat} {r : Except Fault.Cause α} :
    Ends (lift line r) s Q E ↔ (∀ a, r = .ok a → Q a s) ∧ ∀ c, r = .error c → E (.error ⟨line, c⟩) s := by
  cases r with
  | ok a => simp [lift]
  | error c => simp [lift]

theorem ends_lookup {line : Nat} {name : String} {Q : Value → State → Prop} :
    Ends (lookup line name) s Q E ↔
      (∀ slot, s.scopes.find? name = some slot → Q slot.value s) ∧
        (s.scopes.find? name = none → E (.error ⟨line, .unknownVariable name⟩) s) := by
  simp only [lookup, ends_bind, ends_get]
  cases h : s.scopes.find? name <;> simp

theorem lookup_of_find {line : Nat} {name : String} {slot : Slot} (h : s.scopes.find? name = some slot) :
    lookup line name s = .ok slot.value s := by
  rw [lookup, get_bind, h]
  rfl

@[simp] theorem ends_define {name : String} {v : Value} {Q : Unit → State → Prop} :
    Ends (define name v) s Q E ↔ Q () { s with scopes := s.scopes.define name (Slot.ofValue v) } := Iff.rfl

theorem ends_store {line : Nat} {name : String} {v : Value} {Q : Unit → State → Prop} :
    Ends (store line name v) s Q E ↔
      (∀ slot, s.scopes.find? name = some slot →
        (∀ slot', slot.store v = .ok slot' → Q () { s with scopes := s.scopes.update name slot' }) ∧
          ∀ c, slot.store v = .error c → E (.error ⟨line, c⟩) s) ∧
        (s.scopes.find? name = none → E (.error ⟨line, .unknownVariable name⟩) s) := by
  simp only [store, ends_bind, ends_get]
  cases h : s.scopes.find? name with
  | none => simp
  | some slot => simp [ends_lift]

@[simp] theorem ends_nested {x : Run α} :
    Ends (nested x) s Q E ↔
      Ends x { s with scopes := [] :: s.scopes }
        (fun a t => Q a { t with scopes := t.scopes.drop 1 })
        (fun e t => E e { t with scopes := t.scopes.drop 1 }) := by
  simp only [Ends, nested]
  cases x { s with scopes := [] :: s.scopes } <;> rfl

theorem ends_mutate {line : Nat} {name : String} {m : Member} {args : List Value} {Q : Unit → State → Prop} :
    Ends (mutate line name m args) s Q E ↔
      (∀ slot, s.scopes.find? name = some slot →
        (∀ w, slot.value.mutate m args = (w, .ok ()) →
            Q () { s with scopes := s.scopes.update name (slot.withValue w) }) ∧
          ∀ w c, slot.value.mutate m args = (w, .error c) →
            E (.error ⟨line, c⟩) { s with scopes := s.scopes.update name { slot with value := w } }) ∧
        (s.scopes.find? name = none → E (.error ⟨line, .unknownVariable name⟩) s) := by
  simp only [mutate, ends_bind, ends_get]
  cases h : s.scopes.find? name with
  | none => simp
  | some slot =>
    cases hm : slot.value.mutate m args with
    | mk w outcome => cases outcome <;> simp [hm, lift]

/-- A failure that a handler may take is a result. -/
theorem ends_failure? {x : Run Unit} {Q : Option Fault → State → Prop} :
    Ends (failure? x) s Q E ↔
      Ends x s (fun _ t => Q none t) fun h t =>
        match h with
        | .error f => if f.isCatchable then Q (some f) t else E (.error f) t
        | .outOfFuel => E .outOfFuel t := by
  simp only [Ends, failure?]
  cases x s with
  | ok a t => rfl
  | error h t =>
    cases h with
    | outOfFuel => rfl
    | error f => cases hf : f.isCatchable <;> simp [hf]

theorem checkStop_eq (line : Nat) (s : State) :
    checkStop line s = (if s.stopped then fail line .interrupted else pure () : Run Unit) s := rfl

theorem ends_checkStop {line : Nat} {Q : Unit → State → Prop} :
    Ends (checkStop line) s Q E ↔
      (s.stopped = false → Q () s) ∧ (s.stopped = true → E (.error ⟨line, .interrupted⟩) s) := by
  simp only [checkStop, ends_bind, ends_get]
  cases h : s.stopped <;> simp

/-! ## Loops over integers -/

/-- As many integers as are asked for, each the successor of the one before. -/
def ascending : Nat → Int64 → List Int64
  | 0, _ => []
  | n + 1, i => i :: ascending n (i + 1)

/-- A loop over integers is one over values. -/
theorem eachInteger_eq_eachValue {line : Nat} {name : String} (body : Run Unit) (n : Nat) (i : Int64) :
    eachInteger line name body n i = eachValue line name (fun _ => body) ((ascending n i).map .integer) := by
  induction n generalizing i with
  | zero => rfl
  | succ n ih => rw [eachInteger, ascending, List.map_cons, eachValue, ih]

end Run

namespace Heap

open Run

variable {α : Type} {s : State} {E : Halt Fault → State → Prop}

/-- The state with an object marked as busy or not. -/
def marked (id : Nat) (b : Bool) (s : State) : State :=
  { s with objects := s.objects.map fun o => if o.id = id then { o with busy := b } else o }

theorem ends_whileBusy {id : Nat} {x : Run Value} {Q : Value → State → Prop} :
    Ends (whileBusy id x) s Q E ↔
      Ends x (marked id true s) (fun v t => Q v (marked id false t)) fun e t => E e (marked id false t) := by
  simp only [Ends, whileBusy, marked]
  generalize x _ = r
  cases r <;> rfl

/-- Every error is a result. -/
theorem ends_outcome {x : Run α} {Q : Except Fault α → State → Prop} :
    Ends (outcome x) s Q E ↔
      Ends x s (fun a t => Q (.ok a) t) fun h t =>
        match h with
        | .error e => Q (.error e) t
        | .outOfFuel => E .outOfFuel t := by
  simp only [Ends, outcome]
  cases x s with
  | ok a t => rfl
  | error h t => cases h <;> rfl

end Heap
end Crunch
