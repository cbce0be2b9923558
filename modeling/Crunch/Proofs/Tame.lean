import Crunch.Proofs.Natives
import Crunch.Proofs.Plain

/-!
# Crunch.Proofs.Tame

Native types that keep to their arguments.

* `Avoids`, `Halt.Avoids`: a computation does not fail for a bad cause.
* `Action.Tame`: a method that stores through its arguments only, and that fails for a bad cause only
  if a store or a call that it makes does.
* `NativeType.Tame`, `State.Tame`: all methods and constructors do.
* `State.tame_fresh`: so do the native types of every script.
-/

namespace Crunch

/-- A computation does not fail for a bad cause. -/
def Avoids {α : Type} (bad : Fault.Cause → Prop) (r : Except Fault.Cause α) : Prop := ∀ c, r = .error c → ¬bad c

def Halt.Avoids (bad : Fault.Cause → Prop) : Halt Fault → Prop
  | .error f => ¬bad f.cause
  | .outOfFuel => True

/-- The arguments of a method that are read from variables, where it is bad that one is unknown. -/
def Argument.From (bad : Fault.Cause → Prop) (args : List Argument) (a : Argument) : Prop :=
  ∀ n, a.origin = some n → bad (.unknownVariable n) → ∃ b ∈ args, b.origin = some n

/-- What a method does with its arguments. It stores into variables of the arguments only and passes
only those on, and it does not fail for a bad cause unless a store or a call has failed for one. -/
def Action.Tame (bad : Fault.Cause → Prop) (args : List Argument) : Action → Prop
  | .done _ => True
  | .fail c => ¬bad c
  | .keep _ next => next.Tame bad args
  | .store into _ next => into.From bad args ∧ ∀ r, Avoids bad r → (next r).Tame bad args
  | .call _ _ given next => (∀ a ∈ given, a.From bad args) ∧ ∀ r, Avoids bad r → (next r).Tame bad args
  | .look next => ∀ d, (next d).Tame bad args
  | .write _ next => next.Tame bad args

/-- A native type all of whose methods keep to their arguments. -/
structure NativeType.Tame (bad : Fault.Cause → Prop) (t : NativeType) : Prop where
  construct (number : Nat) (args : List Value) (d : Disk) : Avoids bad (t.construct number args d)
  invoke (i : Instance) (method : Nat) (args : List Argument) : (t.invoke i method args).Tame bad args

/-- A state all of whose native types keep to their arguments. -/
structure State.Tame (bad : Fault.Cause → Prop) (s : State) : Prop where
  types : ∀ t ∈ s.types, t.Tame bad
  objects : ∀ o ∈ s.objects, o.native.Tame bad

variable {bad : Fault.Cause → Prop}

theorem Plain.avoids {α : Type} {r : Except Fault.Cause α} (h : Plain r) (hbad : ∀ c, bad c → c.isUnknown = true) :
    Avoids bad r := by
  intro c hc hb
  have := h c hc
  rw [hbad c hb] at this
  cases this

theorem State.tame_iff {s : State} : s.Tame bad ↔ s.AllNative (NativeType.Tame bad) :=
  ⟨fun h => ⟨h.types, h.objects⟩, fun h => ⟨h.types, h.objects⟩⟩

/-! ## The native types of every script -/

namespace Action

variable {args : List Argument}

theorem tame_ofExcept {r : Except Fault.Cause Value} (h : Avoids bad r) : (ofExcept r).Tame bad args := by
  cases r with
  | ok v => trivial
  | error c => exact h c rfl

end Action

section Bundled

variable {args : List Argument} (hbad : ∀ c, bad c → c.isUnknown = true)
include hbad

theorem Fault.Cause.not_bad {c : Fault.Cause} (h : c.isUnknown = false) : ¬bad c := by
  intro hc
  rw [hbad c hc] at h
  cases h

namespace Csv

omit hbad in
theorem plain_character {v : Value} {what : String} : Plain (character v what) := by
  refine .bind Value.plain_literal? fun s => ?_
  split
  · exact plain_pure
  · exact plain_error rfl

omit hbad in
theorem plain_dialect {vs : List Value} : Plain (dialect vs) := by
  have hchar (v? : Option Value) (c : Char) (what : String) : Plain (v?.elim (pure c) (character · what)) := by
    cases v? with
    | none => exact plain_pure
    | some v => exact plain_character
  exact .bind (hchar _ _ _) fun _ => .bind (hchar _ _ _) fun _ => .ite (plain_error rfl) plain_pure

omit hbad in
theorem plain_invoke {d : Dialect} {method : Nat} : Plain (invoke d method args) := by
  unfold invoke
  split
  · refine .ite plain_ok (.bind Value.plain_literal? fun s => ?_)
    split
    · exact plain_pure
    · exact plain_error rfl
  · exact .bind Collection.plain_ofValue? fun _ => plain_pure
  · exact plain_ok
  · exact plain_error rfl

theorem tame_nativeType : nativeType.Tame bad where
  construct _ _ _ := plain_dialect.map.avoids hbad
  invoke i method args := by
    cases i with
    | dialect d => exact Action.tame_ofExcept (plain_invoke.avoids hbad)
    | _ => exact Fault.Cause.not_bad hbad rfl

end Csv

namespace OpenFile

omit hbad in
theorem plain_construct {vs : List Value} {d : Disk} : Plain (construct vs d) := by
  unfold construct
  split
  · rename_i path letter
    have hmode (s : String) : Plain (mode? s) := by
      unfold mode?
      split <;> first | exact plain_ok | exact plain_error rfl
    refine .bind Value.plain_literal? fun path => .bind Value.plain_literal? fun letter => ?_
    refine .bind (hmode letter) fun mode => ?_
    split
    · exact plain_pure
    · exact plain_error rfl
  · exact plain_error rfl

theorem tame_finish {path : String} {r : Except OsError (Bool × OpenFile × Disk)} : (finish path r).Tame bad args := by
  unfold finish
  split
  · exact Fault.Cause.not_bad hbad rfl
  · trivial

theorem tame_readLine {f : OpenFile} {a : Argument} (ha : a ∈ args) : (f.readLine a).Tame bad args := by
  unfold readLine
  split
  · intro d
    simp only [Action.Tame]
    split
    · exact Fault.Cause.not_bad hbad rfl
    · trivial
    · refine ⟨fun n hn _ => ⟨a, ha, hn⟩, fun r hr => Action.tame_ofExcept ?_⟩
      cases r with
      | ok u => exact nofun
      | error c => exact fun c' hc => Except.error.inj hc ▸ hr c rfl
  · exact Fault.Cause.not_bad hbad rfl

theorem tame_writeText {f : OpenFile} {s : String} : (f.writeText s).Tame bad args := by
  unfold writeText
  split
  · intro d
    simp only [Action.Tame]
    split
    · exact Fault.Cause.not_bad hbad rfl
    · trivial
  · exact Fault.Cause.not_bad hbad rfl

theorem tame_invoke {f : OpenFile} {method : Nat} : (f.invoke method args).Tame bad args := by
  unfold invoke
  split
  · exact tame_readLine hbad List.mem_cons_self
  · split
    · rename_i c hc
      exact Fault.Cause.not_bad hbad (Value.plain_literal? c hc)
    · exact tame_writeText hbad
  · exact fun d => tame_finish hbad
  · exact fun d => tame_finish hbad
  · trivial
  · exact Fault.Cause.not_bad hbad rfl

theorem tame_nativeType : nativeType.Tame bad where
  construct _ _ _ := plain_construct.avoids hbad
  invoke i method args := by
    cases i with
    | file f => exact tame_invoke hbad
    | _ => exact Fault.Cause.not_bad hbad rfl

end OpenFile

/-- The native types of every script keep to their arguments. -/
theorem State.tame_fresh (engine : Pattern.Engine) (random : Random) (input : List UInt8) (disk : Disk) :
    (fresh engine random input disk).Tame bad where
  types t ht := by
    simp only [fresh, bundled, List.mem_cons, List.not_mem_nil, or_false] at ht
    rcases ht with rfl | rfl
    · exact Csv.tame_nativeType hbad
    · exact OpenFile.tame_nativeType hbad
  objects := nofun

end Bundled

end Crunch
