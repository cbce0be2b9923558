import Crunch.Heap

/-!
# Crunch.Proofs.Natives

The native types of a state, and which variables their methods reach.

* `State.AllNative`: something holds of every native type that a state can call, those of its objects
  included. Whatever a run does to objects keeps it.
* `Action.StaysIn`: a method that stores into variables of some names only, and passes only those on.
* `NativeType.Confined`: a native type whose methods stay in the variables that they are given.
* `State.confined_fresh`: the native types of every script do.
-/

namespace Crunch

/-- Something holds of every native type that can be imported and of the type of every object. -/
structure State.AllNative (p : NativeType → Prop) (s : State) : Prop where
  types : ∀ t ∈ s.types, p t
  objects : ∀ o ∈ s.objects, p o.native

namespace State.AllNative

variable {p q : NativeType → Prop} {s t : State}

theorem mono (hpq : ∀ n, p n → q n) (h : s.AllNative p) : s.AllNative q := by
  constructor
  · intro n hn
    exact hpq n (h.types n hn)
  · intro o ho
    exact hpq o.native (h.objects o ho)

theorem congr (h : s.AllNative p) (ht : t.types = s.types)
    (ho : ∀ o ∈ t.objects, ∃ o' ∈ s.objects, o.native = o'.native) : t.AllNative p := by
  refine ⟨ht ▸ h.types, fun o hm => ?_⟩
  obtain ⟨o', hm', he⟩ := ho o hm
  exact he ▸ h.objects o' hm'

theorem same (h : s.AllNative p) (ht : t.types = s.types) (ho : t.objects = s.objects) : t.AllNative p :=
  h.congr ht fun o hm => ⟨o, ho ▸ hm, rfl⟩

theorem type? {name : String} {n : NativeType} (h : s.AllNative p) (hn : s.type? name = some n) : p n :=
  h.types n (List.mem_of_find?_eq_some hn)

theorem imported? {name : String} {n : NativeType} (h : s.AllNative p) (hn : s.imported? name = some n) : p n := by
  unfold State.imported? at hn
  split at hn
  · exact h.type? hn
  · cases hn

theorem find? {id : Nat} {o : Object} (h : s.AllNative p) (ho : Heap.find? s id = some o) : p o.native :=
  h.objects o (List.mem_of_find?_eq_some ho)

/-- Objects that are given up do not count. -/
theorem swept (h : s.AllNative p) (held : List Value) : (Heap.swept held s).AllNative p := by
  unfold Heap.swept
  split
  · exact h
  · refine h.congr rfl fun o ho => ⟨o, ?_, rfl⟩
    rw [List.partition_eq_filter_filter] at ho
    exact (List.mem_filter.mp ho).1

theorem mapped (h : s.AllNative p) {f : Object → Object} (hf : ∀ o, (f o).native = o.native) :
    State.AllNative p { s with objects := s.objects.map f } := by
  refine h.congr rfl fun o ho => ?_
  obtain ⟨o', hm, rfl⟩ := List.mem_map.mp ho
  exact ⟨o', hm, hf o'⟩

end State.AllNative

/-! ## Methods and variables -/

/-- The variable that an argument is read from, if there is one, has a name in `W`. -/
def Argument.Within (W : String → Prop) (a : Argument) : Prop := ∀ n, a.origin = some n → W n

def Action.StaysIn (W : String → Prop) : Action → Prop
  | .done _ => True
  | .fail _ => True
  | .keep _ next => next.StaysIn W
  | .store into _ next => into.Within W ∧ ∀ r, (next r).StaysIn W
  | .call _ _ given next => (∀ a ∈ given, a.Within W) ∧ ∀ r, (next r).StaysIn W
  | .look next => ∀ d, (next d).StaysIn W
  | .write _ next => next.StaysIn W

/-- Methods store into variables of their arguments only, and pass only those on. -/
def NativeType.Confined (t : NativeType) : Prop :=
  ∀ i method args, (t.invoke i method args).StaysIn fun n => ∃ a ∈ args, a.origin = some n

namespace Action

variable {W V : String → Prop}

theorem StaysIn.mono (hWV : ∀ n, W n → V n) {a : Action} (h : a.StaysIn W) : a.StaysIn V := by
  induction a with
  | done v => trivial
  | fail c => trivial
  | keep i next ih => exact ih h
  | store into v next ih =>
    obtain ⟨hinto, hnext⟩ := h
    exact ⟨fun n hn => hWV n (hinto n hn), fun r => ih r (hnext r)⟩
  | call object method given next ih =>
    obtain ⟨hgiven, hnext⟩ := h
    exact ⟨fun a ha n hn => hWV n (hgiven a ha n hn), fun r => ih r (hnext r)⟩
  | look next ih => exact fun d => ih d (h d)
  | write d next ih => exact ih h

theorem staysIn_any (a : Action) : a.StaysIn fun _ => True := by
  induction a with
  | done v => trivial
  | fail c => trivial
  | keep i next ih => exact ih
  | store into v next ih => exact ⟨fun _ _ => trivial, ih⟩
  | call object method given next ih => exact ⟨fun _ _ _ _ => trivial, ih⟩
  | look next ih => exact ih
  | write d next ih => exact ih

theorem staysIn_ofExcept (r : Except Fault.Cause Value) : (ofExcept r).StaysIn W := by
  cases r <;> trivial

end Action

/-- A method of a confined type reaches no further than its arguments do. -/
theorem NativeType.Confined.staysIn {t : NativeType} (h : t.Confined) {W : String → Prop} {args : List Argument}
    (hargs : ∀ a ∈ args, a.Within W) (i : Instance) (method : Nat) : (t.invoke i method args).StaysIn W := by
  refine (h i method args).mono fun n hn => ?_
  obtain ⟨a, ha, hn⟩ := hn
  exact hargs a ha n hn

theorem Csv.confined_nativeType : nativeType.Confined := by
  intro i method args
  cases i with
  | dialect d => exact Action.staysIn_ofExcept _
  | _ => trivial

namespace OpenFile

variable {f : OpenFile} {W : String → Prop}

theorem staysIn_finish (path : String) (r : Except OsError (Bool × OpenFile × Disk)) : (finish path r).StaysIn W := by
  unfold finish
  split <;> trivial

theorem staysIn_readLine {a : Argument} (ha : a.Within W) : (f.readLine a).StaysIn W := by
  unfold readLine
  split
  · intro d
    simp only [Action.StaysIn]
    split
    · trivial
    · trivial
    · exact ⟨ha, fun r => Action.staysIn_ofExcept _⟩
  · trivial

theorem staysIn_writeText (s : String) : (f.writeText s).StaysIn W := by
  unfold writeText
  split
  · intro d
    simp only [Action.StaysIn]
    split <;> trivial
  · trivial

theorem confined_nativeType : nativeType.Confined := by
  intro i method args
  cases i with
  | file f =>
    simp only [nativeType, invoke]
    split
    · exact staysIn_readLine fun n hn => ⟨_, List.mem_cons_self, hn⟩
    · split
      · trivial
      · exact staysIn_writeText _
    · exact fun d => staysIn_finish _ _
    · exact fun d => staysIn_finish _ _
    · trivial
    · trivial
  | _ => trivial

end OpenFile

theorem State.confined_fresh (engine : Pattern.Engine) (random : Random) (input : List UInt8) (disk : Disk) :
    (State.fresh engine random input disk).AllNative NativeType.Confined := by
  constructor
  · intro t ht
    simp only [fresh, bundled, List.mem_cons, List.not_mem_nil, or_false] at ht
    rcases ht with rfl | rfl
    · exact Csv.confined_nativeType
    · exact OpenFile.confined_nativeType
  · intro o ho
    cases ho

end Crunch
