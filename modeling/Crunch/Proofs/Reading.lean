import Crunch.Proofs.Targets

/-!
# Crunch.Proofs.Reading

When the operands of an operator are read.

* `Expr.late`: both operands are evaluated first, and variables among them are read afterwards. This is
  what an operator does, up to the count of allocations.
* `Expr.inOrder`, `Expr.indexInOrder`: the left operand is read before the right one is evaluated.
* `Run.Follows`: a computation gives the same whether or not some more values are held, as long as it
  does not give up objects that these refer to.
* `Expr.Undisturbed`: the variable that the left operand names has the same value after the right operand.
* `Expr.undisturbed_of_writes`: so it is if the variable is not a target in the right operand.
* `Expr.operands_in_order`: then an operator and an index read their operands from left to right.
-/

namespace Crunch

open Run

/-! ## Texts -/

namespace BinaryOp

theorem result?_add_tabchar {b t : Ty} (h : add.result? Ty.tabchar b = some t) : t = Ty.literal ∨ t = Ty.tabchar := by
  simp only [result?] at h
  split at h
  · cases h
    exact .inr rfl
  · split at h
    · cases h
      exact .inl rfl
    · have hnone : Ty.promote? Ty.tabchar b = none := by
        unfold Ty.promote?
        cases b.isUntyped <;> rfl
      rw [hnone] at h
      cases h

/-- Text or bytes on the left make a sum a concatenation. -/
theorem apply_add {l : Value} (hl : (∃ s, l = .literal s) ∨ ∃ bytes, l = .tabchar bytes) (r : Value)
    (cache : Pattern.Cache) : add.apply l r cache = (Operation.concat l r, cache) := by
  have hnull : l.isNull = false := by
    rcases hl with ⟨s, rfl⟩ | ⟨bytes, rfl⟩ <;> rfl
  have hresult : ∀ t, add.result? l.type r.type = some t → t = Ty.literal ∨ t = Ty.tabchar := by
    intro t ht
    rcases hl with ⟨s, rfl⟩ | ⟨bytes, rfl⟩
    · have hliteral : add.result? (Value.literal s).type r.type = some Ty.literal := rfl
      rw [hliteral] at ht
      cases ht
      exact .inl rfl
    · exact result?_add_tabchar ht
  simp only [apply, Operation.concat]
  cases ht : add.result? l.type r.type with
  | none => rfl
  | some t =>
    simp only [isComparison, isLogical, hnull, Bool.false_or, Bool.false_eq_true, if_false]
    by_cases hr : r.isNull = true
    · simp [hr]
    · simp [hr, Operation.combine, hresult t ht, Operation.concat, ht, hnull]

end BinaryOp

/-! ## Order of evaluation -/

namespace Expr

/-- Evaluates both operands and then reads them. -/
def late (held : List Value) (line : Nat) (op : BinaryOp) (l r : Expr) : Run Value := do
  let o ← l.operand held
  let p ← r.operand (o.held ++ held)
  let a ← o.read line
  let b ← p.read line
  Run.binary line op a b

/-- Evaluates the left operand to a value, then the right one, and applies the operator to the values. -/
def inOrder (held : List Value) (line : Nat) (op : BinaryOp) (l r : Expr) : Run Value := do
  let a ← l.eval held
  let b ← r.eval (a :: held)
  Run.binary line op a b

/-- Evaluates the target to a value, then the position, and fetches the element. -/
def indexInOrder (held : List Value) (line : Nat) (target position : Expr) : Run Value := do
  let a ← target.eval held
  let b ← position.eval (a :: held)
  let i ← Run.lift line b.integer?
  let c ← Run.lift line (Collection.ofValue? a)
  Run.lift line (c.get i)

end Expr

/-- How many of some objects have been given up. -/
def State.gone (ids : List Nat) (s : State) : Nat := s.released.countP fun o => ids.contains o.id

/-- A computation, apart from the count of allocations. -/
def Run.uncounted {α : Type} (x : Run α) : Run α := fun s =>
  match x s with
  | .ok a t => .ok a { t with allocations := 0 }
  | .error e t => .error e { t with allocations := 0 }

/-- The variable that `l` names, if it names one, has the same value before and after `r` is evaluated, and
no object that the value refers to is given up in between. -/
def Expr.Undisturbed (held : List Value) (l r : Expr) (s : State) : Prop :=
  ∀ name t slot, l.operand held s = .ok (.named name) t → t.scopes.find? name = some slot →
    (∀ p u, r.operand held t = .ok p u → ∃ slot', u.scopes.find? name = some slot' ∧ slot'.value = slot.value) ∧
      ((r.operand held).after t).gone slot.value.references = t.gone slot.value.references

/-! ## Values that are held -/

/-- No object comes back. -/
theorem Trail.gone_le {L : Licence} {D : String → Prop} {s t : State} (h : Trail L D s t) (ids : List Nat) :
    s.gone ids ≤ t.gone ids := by
  induction h with
  | refl => exact Nat.le_refl _
  | trans _ _ ih₁ ih₂ => exact Nat.le_trans ih₁ ih₂
  | write _ _ _ => exact Nat.le_refl _
  | declare _ => exact Nat.le_refl _
  | nest _ ih => exact ih
  | sweep =>
    simp only [State.gone, Heap.swept]
    split
    · exact Nat.le_refl _
    · rw [List.countP_append]
      exact Nat.le_add_left _ _
  | build _ => exact Nat.le_refl _
  | keep => exact Nat.le_refl _
  | busy _ ih => exact ih
  | aside hb => exact Nat.le_of_eq (congrArg (List.countP _) hb.released.symm)

namespace Heap

variable {s : State} {held held' : List Value}

theorem swept_congr (h : ∀ o ∈ s.objects, isLive s held' o = isLive s held o) : swept held' s = swept held s := by
  have hlive : s.objects.filter (isLive s held') = s.objects.filter (isLive s held) := List.filter_congr h
  have hdead : s.objects.filter (not ∘ isLive s held') = s.objects.filter (not ∘ isLive s held) :=
    List.filter_congr fun o ho => by simp only [Function.comp, h o ho]
  simp only [swept, List.partition_eq_filter_filter, hlive, hdead]

/-- If none of some objects is given up, all of them are live. -/
theorem isLive_of_gone {ids : List Nat} (h : (swept held s).gone ids = s.gone ids) {o : Object} (ho : o ∈ s.objects)
    (hid : o.id ∈ ids) : isLive s held o = true := by
  unfold swept at h
  split at h
  · rename_i hobjects
    rw [List.isEmpty_iff.mp hobjects] at ho
    cases ho
  · simp only [List.partition_eq_filter_filter, State.gone, List.countP_append, List.countP_reverse] at h
    have hdead : (s.objects.filter (not ∘ isLive s held)).countP (fun o => ids.contains o.id) = 0 := by omega
    cases hlive : isLive s held o with
    | true => rfl
    | false =>
      have hmem : o ∈ s.objects.filter (not ∘ isLive s held) := List.mem_filter.mpr ⟨ho, by simp [hlive]⟩
      have hnot := List.countP_eq_zero.mp hdead o hmem
      simp [hid] at hnot

end Heap

namespace Run

variable {α β : Type} {ids : List Nat} {held held' : List Value} {D : String → Prop} {P : α → Prop}

/-- The second computation does what the first one does, if that gives up none of some objects. -/
def Follows (ids : List Nat) (x y : Run α) : Prop :=
  ∀ s : State, s.gone ids ≤ (x.after s).gone ids ∧ ((x.after s).gone ids = s.gone ids → y s = x s)

/-- Values that refer to some objects besides those that other values refer to. -/
def Holds (ids : List Nat) (held held' : List Value) : Prop :=
  ∀ id, id ∈ Value.referencesAll held' ↔ id ∈ Value.referencesAll held ∨ id ∈ ids

theorem Traces.follows {x : Run α} (hx : Traces .any D x P) : Follows ids x x := by
  intro s
  refine ⟨?_, fun _ => rfl⟩
  have hends : Ends x s (fun _ t => s.gone ids ≤ t.gone ids) fun _ t => s.gone ids ≤ t.gone ids :=
    (hx s (Licence.allNative_any s)).mono (fun _ _ h => h.1.gone_le ids) fun _ _ h => h.gone_le ids
  exact (ends_after (P := fun t => s.gone ids ≤ t.gone ids)).mp hends

theorem Quiet.follows {x : Run α} (hx : Quiet x) : Follows ids x x :=
  Traces.follows (D := fun _ => False) hx.traces

theorem Follows.bind {x y : Run α} {f g : α → Run β} (hx : Follows ids x y) (hf : ∀ a, Follows ids (f a) (g a)) :
    Follows ids (x >>= f) (y >>= g) := by
  intro s
  obtain ⟨hle, heq⟩ := hx s
  cases hxs : x s with
  | error e t =>
    rw [after_of_error hxs] at hle heq
    rw [after_of_error (bind_of_error hxs)]
    refine ⟨hle, fun hgone => ?_⟩
    rw [bind_of_error hxs, bind_of_error ((heq hgone).trans hxs)]
  | ok a t =>
    rw [after_of_ok hxs] at hle heq
    obtain ⟨hle', heq'⟩ := hf a t
    have hafter : (x >>= f).after s = (f a).after t := by simp only [after, bind_of_ok hxs]
    rw [hafter]
    refine ⟨Nat.le_trans hle hle', fun hgone => ?_⟩
    -- Nothing is lost in the end, so nothing has been lost half-way.
    have hfirst : t.gone ids = s.gone ids := by omega
    have hsecond : ((f a).after t).gone ids = t.gone ids := by omega
    rw [bind_of_ok hxs, bind_of_ok ((heq hfirst).trans hxs), heq' hsecond]

theorem referencesAll_append (vs ws : List Value) :
    Value.referencesAll (vs ++ ws) = Value.referencesAll vs ++ Value.referencesAll ws := by
  induction vs with
  | nil => rfl
  | cons v vs ih => simp only [List.cons_append, Value.referencesAll, ih, List.append_assoc]

theorem Holds.append (h : Holds ids held held') (vs : List Value) : Holds ids (vs ++ held) (vs ++ held') := by
  intro id
  simp only [referencesAll_append, List.mem_append, h id, or_assoc]

theorem holds_cons (v : Value) (held : List Value) : Holds v.references held (v :: held) := by
  intro id
  simp only [Value.referencesAll, List.mem_append, or_comm]

theorem follows_sweep (h : Holds ids held held') : Follows ids (Heap.sweep held) (Heap.sweep held') := by
  intro s
  have hafter : (Heap.sweep held).after s = Heap.swept held s := rfl
  rw [hafter]
  refine ⟨(Trail.sweep (L := .any) (D := fun _ => False)).gone_le ids, fun hgone => ?_⟩
  have hswept : Heap.swept held' s = Heap.swept held s := by
    refine Heap.swept_congr fun o ho => ?_
    by_cases hid : o.id ∈ ids
    · have hheld : (Value.referencesAll held').contains o.id = true := by
        rw [List.contains_iff_mem]
        exact (h o.id).mpr (.inr hid)
      rw [Heap.isLive_of_gone hgone ho hid, Heap.isLive, hheld, Bool.or_true]
    · have hheld : (Value.referencesAll held').contains o.id = (Value.referencesAll held).contains o.id := by
        rw [Bool.eq_iff_iff, List.contains_iff_mem, List.contains_iff_mem, h o.id]
        simp [hid]
      rw [Heap.isLive, Heap.isLive, hheld]
  have hrun : ∀ vs, Heap.sweep vs s = .ok ⟨⟩ (Heap.swept vs s) := fun _ => rfl
  rw [hrun, hrun, hswept]

theorem follows_callObject (h : Holds ids held held') {line : Nat} {native : String} {id : Nat} {name : String}
    {args : List Argument} : Follows ids (callObject line held native id name args)
      (callObject line held' native id name args) := by
  refine quiet_get.follows.bind fun s => ?_
  cases Heap.find? s id with
  | none => exact quiet_fail.follows
  | some o =>
    simp only
    cases o.native.interface.findMethod? name args.length with
    | none => exact quiet_fail.follows
    | some m =>
      refine (follows_sweep (h.append _)).bind fun _ => quiet_get.follows.bind fun t => ?_
      exact Traces.follows (D := fun _ => False) (traces_invokeTo fun _ _ _ _ => trivial)

theorem follows_construct (h : Holds ids held held') {line : Nat} {t : NativeType} {name : String}
    {args : List Value} : Follows ids (construct line held t name args) (construct line held' t name args) := by
  unfold construct
  cases t.interface.findConstructor? args.length with
  | none => exact quiet_fail.follows
  | some number =>
    refine (follows_sweep (h.append _)).bind fun _ => ?_
    exact Traces.follows (D := fun _ => False) (traces_build (Licence.admits_any t))

end Run

namespace Expr

variable {ids : List Nat}

mutual

theorem follows_operand {held held' : List Value} (h : Holds ids held held') (e : Expr) :
    Follows ids (e.operand held) (e.operand held') := by
  cases e with
  | constant line c =>
    rw [Expr.operand, Expr.operand]
    exact quiet_pure.follows
  | var line name =>
    rw [Expr.operand, Expr.operand]
    exact quiet_lookup.follows.bind fun _ => quiet_pure.follows
  | unary line op e =>
    rw [Expr.operand, Expr.operand]
    refine (follows_operand h e).bind fun o => quiet_read.follows.bind fun v => quiet_lift.follows.bind fun w => ?_
    exact quiet_counted.follows.bind fun _ => quiet_pure.follows
  | binary line op left right =>
    rw [Expr.operand, Expr.operand]
    refine (follows_operand h left).bind fun l => ?_
    split
    · refine Follows.bind ?_ fun _ => quiet_pure.follows
      refine quiet_read.follows.bind fun v => quiet_lift.follows.bind fun a => ?_
      split
      · exact quiet_pure.follows
      · refine (follows_operand h right).bind fun r => quiet_read.follows.bind fun _ => ?_
        exact quiet_read.follows.bind fun w => quiet_lift.follows.bind fun b => quiet_counted.follows
    · refine (follows_operand (h.append l.held) right).bind fun r => ?_
      exact quiet_combine.follows.bind fun _ => quiet_pure.follows
  | call line name es =>
    rw [Expr.operand, Expr.operand]
    refine quiet_get.follows.bind fun s => ?_
    cases s.imported? name with
    | some t =>
      refine (follows_arguments h es).bind fun args => ?_
      exact (follows_construct h).bind fun _ => quiet_pure.follows
    | none =>
      cases Builtin.ofName? name with
      | none => exact quiet_fail.follows
      | some b =>
        simp only
        split
        · refine (follows_arguments h es).bind fun args => ?_
          refine Follows.bind ?_ fun _ => quiet_pure.follows
          exact Traces.follows (D := fun _ => False) (traces_call fun _ _ _ _ _ => trivial)
        · exact quiet_fail.follows
  | member line receiver m es =>
    rw [Expr.operand, Expr.operand]
    refine (follows_operand h receiver).bind fun o => quiet_read.follows.bind fun v => ?_
    have hmember : Follows ids
        (do let args ← Expr.arguments (o.held ++ held) es; callMember line o m (args.map (·.value)))
        (do let args ← Expr.arguments (o.held ++ held') es; callMember line o m (args.map (·.value))) := by
      refine (follows_arguments (h.append o.held) es).bind fun args => ?_
      exact Traces.follows (D := fun _ => False) (traces_callMember fun _ _ _ => trivial)
    cases v with
    | object native id =>
      refine (follows_arguments (h.append [.object native id]) es).bind fun args => ?_
      exact (follows_callObject h).bind fun _ => quiet_pure.follows
    | _ => exact hmember
  | index line target position =>
    rw [Expr.operand, Expr.operand]
    refine (follows_operand h target).bind fun o => (follows_operand (h.append o.held) position).bind fun p => ?_
    refine quiet_read.follows.bind fun i => quiet_lift.follows.bind fun i => quiet_read.follows.bind fun v => ?_
    exact quiet_lift.follows.bind fun c => quiet_lift.follows.bind fun _ => quiet_pure.follows
  | field line target position =>
    rw [Expr.operand, Expr.operand]
    refine (follows_operand h target).bind fun o => quiet_read.follows.bind fun v => ?_
    exact quiet_lift.follows.bind fun r => quiet_lift.follows.bind fun _ => quiet_pure.follows
  | collection line elements =>
    rw [Expr.operand, Expr.operand]
    refine (follows_arguments h elements).bind fun args => ?_
    exact quiet_lift.follows.bind fun c => quiet_pure.follows

theorem follows_arguments {held held' : List Value} (h : Holds ids held held') (es : List Expr) :
    Follows ids (Expr.arguments held es) (Expr.arguments held' es) := by
  cases es with
  | nil =>
    rw [Expr.arguments, Expr.arguments]
    exact quiet_pure.follows
  | cons e es =>
    rw [Expr.arguments, Expr.arguments]
    refine (follows_operand h e).bind fun o => quiet_read.follows.bind fun v => ?_
    exact (follows_arguments (h.append [v]) es).bind fun args => quiet_pure.follows

end

/-! ## Operands and their values -/

/-- The last part of a computation decides what its result is. -/
theorem ends_last {α β : Type} {x : Run α} {f : α → Run β} {s : State} {Q : β → State → Prop}
    (h : ∀ a t, Ends (f a) t Q fun _ _ => True) : Ends (x >>= f) s Q fun _ _ => True :=
  ends_bind.mpr (ends_of_forall h fun _ _ => trivial)

/-- The variable that an operand names is there. -/
def Found (o : Operand) (s : State) : Prop := ∀ name, o = .named name → ∃ slot, s.scopes.find? name = some slot

theorem found_temporary {v : Value} {s : State} : Found (.temporary v) s := by
  intro name he
  cases he

theorem found_callMember {line : Nat} {o : Operand} {m : Member} {args : List Value} {s : State} :
    Ends (callMember line o m args) s Found fun _ _ => True := by
  unfold callMember
  split
  · cases o with
    | named name =>
      simp only [ends_bind, ends_mutate, ends_pure]
      refine ⟨fun slot hf => ⟨fun w _ => ?_, fun _ _ _ => trivial⟩, fun _ => trivial⟩
      intro other he
      cases he
      rw [Scopes.find?_update hf, if_pos rfl]
      exact ⟨_, rfl⟩
    | temporary v => exact ends_last fun _ _ => found_temporary
  · exact ends_last fun _ _ => ends_last fun _ _ => found_temporary

theorem found_operand (held : List Value) (e : Expr) (s : State) :
    Ends (e.operand held) s Found fun _ _ => True := by
  cases e with
  | constant line c =>
    rw [Expr.operand]
    exact found_temporary
  | var line name =>
    rw [Expr.operand]
    simp only [ends_bind, ends_lookup, ends_pure]
    refine ⟨fun slot hf => ?_, fun _ => trivial⟩
    intro other he
    cases he
    exact ⟨slot, hf⟩
  | unary line op e =>
    rw [Expr.operand]
    exact ends_last fun _ _ => ends_last fun _ _ => ends_last fun _ _ => ends_last fun _ _ => found_temporary
  | binary line op left right =>
    rw [Expr.operand]
    refine ends_last fun l t => ?_
    split
    · exact ends_last fun _ _ => found_temporary
    · exact ends_last fun _ _ => ends_last fun _ _ => found_temporary
  | call line name es =>
    rw [Expr.operand]
    refine ends_last fun s' t => ?_
    cases s'.imported? name with
    | some n => exact ends_last fun _ _ => ends_last fun _ _ => found_temporary
    | none =>
      cases Builtin.ofName? name with
      | none => exact trivial
      | some b =>
        simp only
        split
        · exact ends_last fun _ _ => ends_last fun _ _ => found_temporary
        · exact trivial
  | member line receiver m es =>
    rw [Expr.operand]
    refine ends_last fun o t => ends_last fun v t => ?_
    cases v with
    | object native id => exact ends_last fun _ _ => ends_last fun _ _ => found_temporary
    | _ => exact ends_last fun _ _ => found_callMember
  | index line target position =>
    rw [Expr.operand]
    refine ends_last fun _ _ => ends_last fun _ _ => ends_last fun _ _ => ends_last fun _ _ => ?_
    exact ends_last fun _ _ => ends_last fun _ _ => ends_last fun _ _ => found_temporary
  | field line target position =>
    rw [Expr.operand]
    exact ends_last fun _ _ => ends_last fun _ _ => ends_last fun _ _ => ends_last fun _ _ => found_temporary
  | collection line elements =>
    rw [Expr.operand]
    exact ends_last fun _ _ => ends_last fun _ _ => found_temporary

/-- What an operand stands for in a state, wherever it is read. -/
def Reads (o : Operand) (a : Value) (s : State) : Prop := ∀ line, o.read line s = .ok a s

theorem reads_temporary (a : Value) (s : State) : Reads (.temporary a) a s := fun _ => rfl

theorem reads_named {name : String} {slot : Slot} {s : State} (h : s.scopes.find? name = some slot) :
    Reads (.named name) slot.value s := fun _ => lookup_of_find h

theorem reads_of_operand {held : List Value} {e : Expr} {s t : State} {o : Operand}
    (h : e.operand held s = .ok o t) : ∃ a, Reads o a t := by
  have hfound : Found o t := (ends_of_ok h).mp (found_operand held e s)
  cases o with
  | named name =>
    obtain ⟨slot, hf⟩ := hfound name rfl
    exact ⟨slot.value, reads_named hf⟩
  | temporary v => exact ⟨v, reads_temporary v t⟩

/-! ## Left to right -/

/-- The right operand does the same whether the value of the left one is held or the variable is named, and
the left one has its value afterwards. -/
theorem right_operand {held : List Value} {l r : Expr} {s t : State} {o : Operand} {a : Value}
    (h : Undisturbed held l r s) (hl : l.operand held s = .ok o t) (ha : Reads o a t) :
    r.operand (a :: held) t = r.operand (o.held ++ held) t ∧
      ∀ p u, r.operand (o.held ++ held) t = .ok p u → Reads o a u := by
  cases o with
  | temporary v =>
    have hav : v = a := by
      cases ha 0
      rfl
    subst hav
    exact ⟨rfl, fun p u _ => reads_temporary v u⟩
  | named name =>
    obtain ⟨slot, hf⟩ : ∃ slot, t.scopes.find? name = some slot :=
      (ends_of_ok hl).mp (found_operand held l s) name rfl
    have hav : slot.value = a := by
      have hread := ha 0
      rw [reads_named hf 0] at hread
      cases hread
      rfl
    subst hav
    obtain ⟨hkeep, hgone⟩ := h name t slot hl hf
    refine ⟨(follows_operand (holds_cons slot.value held) r t).2 hgone, fun p u hr => ?_⟩
    obtain ⟨slot', hf', hvalue⟩ := hkeep p u hr
    rw [← hvalue]
    exact reads_named hf'

theorem in_order {β : Type} {held : List Value} {l r : Expr} {s : State} (h : Undisturbed held l r s)
    {f : Operand → Operand → Run β} {k : Value → Value → Run β}
    (hf : ∀ o p a b u, Reads o a u → Reads p b u → f o p u = k a b u) :
    (do let o ← l.operand held; let p ← r.operand (o.held ++ held); f o p) s =
      (do let a ← l.eval held; let b ← r.eval (a :: held); k a b) s := by
  cases hl : l.operand held s with
  | error e t =>
    have heval : l.eval held s = .error e t := bind_of_error hl
    rw [bind_of_error hl, bind_of_error heval]
  | ok o t =>
    obtain ⟨a, ha⟩ := reads_of_operand hl
    obtain ⟨hsame, hreads⟩ := right_operand h hl ha
    have heval : l.eval held s = .ok a t := (bind_of_ok hl).trans (ha l.line)
    rw [bind_of_ok hl, bind_of_ok heval]
    cases hr : r.operand (o.held ++ held) t with
    | error e u =>
      have hright : r.eval (a :: held) t = .error e u := bind_of_error (hsame.trans hr)
      rw [bind_of_error hr, bind_of_error hright]
    | ok p u =>
      obtain ⟨b, hb⟩ := reads_of_operand hr
      have hright : r.eval (a :: held) t = .ok b u := (bind_of_ok (hsame.trans hr)).trans (hb r.line)
      rw [bind_of_ok hr, bind_of_ok hright]
      exact hf o p a b u (hreads p u hr) hb

end Expr

/-! ## The count of allocations -/

namespace Run

variable {α β : Type}

theorem uncounted_bind {x : Run α} {f g : α → Run β} {s : State}
    (h : ∀ a t, x s = .ok a t → (f a).uncounted t = (g a).uncounted t) :
    (x >>= f).uncounted s = (x >>= g).uncounted s := by
  cases hx : x s with
  | ok a t =>
    have hstep : ∀ k : α → Run β, (x >>= k).uncounted s = (k a).uncounted t := by
      intro k
      simp only [uncounted, bind_of_ok hx]
    rw [hstep, hstep, h a t hx]
  | error e t => simp only [uncounted, bind_of_error hx]

theorem uncounted_counted (operands : List Operand) (v : Value) :
    (counted operands v).uncounted = (pure v : Run Value).uncounted := by
  unfold counted
  split <;> rfl

theorem binary_add {line : Nat} {l : Value} (hl : (∃ s, l = .literal s) ∨ ∃ bytes, l = .tabchar bytes) (r : Value) :
    binary line .add l r = lift line (Operation.concat l r) := by
  funext s
  have hrun : binary line .add l r s = lift line (BinaryOp.add.apply l r s.patterns).1
      { s with patterns := (BinaryOp.add.apply l r s.patterns).2 } := rfl
  rw [hrun, BinaryOp.apply_add hl]

/-- Appending to a text that belongs to the expression is what the operator does: both operands are read, and it is
applied to their values. -/
theorem combine_eq (line : Nat) (op : BinaryOp) (o p : Operand) :
    combine line op o p = (do
      let a ← o.read line
      let b ← p.read line
      counted [o, p] (← binary line op a b)) := by
  have hcounted : ∀ v : Value, counted [.temporary v, p] = pure := fun v => rfl
  unfold combine
  split
  · simp only [Operand.read, pure_bind, hcounted, bind_pure]
    exact bind_congr fun b => (binary_add (.inl ⟨_, rfl⟩) b).symm
  · simp only [Operand.read, pure_bind, hcounted, bind_pure]
    exact bind_congr fun b => (binary_add (.inr ⟨_, rfl⟩) b).symm
  · rfl

theorem uncounted_combine (line : Nat) (op : BinaryOp) (o p : Operand) (s : State) :
    (combine line op o p).uncounted s =
      (do let a ← o.read line; let b ← p.read line; binary line op a b : Run Value).uncounted s := by
  rw [combine_eq]
  refine uncounted_bind fun a t _ => uncounted_bind fun b u _ => ?_
  have hpure : (binary line op a b).uncounted u = (binary line op a b >>= pure).uncounted u := by rw [bind_pure]
  rw [hpure]
  exact uncounted_bind fun v w _ => congrFun (uncounted_counted _ v) w

end Run

/-! ## Variables out of reach -/

namespace Column

variable {α : Type} {d : Prop} {cs ds : List (Option α)} {c : Option α}

/-- A place of a column that no declaration in the innermost scope can reach. -/
def Deep (d : Prop) (cs : List (Option α)) (c : Option α) : Prop := c ∈ cs.drop 1 ∨ ¬d ∧ c ∈ cs

theorem Unwritten.deep (h : Unwritten d cs ds) (hc : Deep d cs c) : Deep d ds c := by
  cases h with
  | nil => exact hc
  | cons hb =>
    rcases hc with hc | ⟨hd, hc⟩
    · exact .inl hc
    · rw [hb.resolve_left hd]
      exact .inr ⟨hd, hc⟩

theorem Deep.mem (h : Deep d cs c) : c ∈ cs := by
  rcases h with hc | ⟨-, hc⟩
  · exact List.mem_of_mem_drop hc
  · exact hc

end Column

theorem State.mem_references {s : State} {name : String} {slot : Slot} (h : some slot ∈ s.scopes.column name)
    {id : Nat} (hid : id ∈ slot.value.references) : id ∈ s.references := by
  obtain ⟨scope, hscope, hlookup⟩ := List.mem_map.mp h
  refine List.mem_flatMap.mpr ⟨scope, hscope, List.mem_flatMap.mpr ⟨(name, slot), ?_, hid⟩⟩
  exact Scope.mem_of_lookup hlookup

theorem Heap.gone_swept {s : State} {held : List Value} {ids : List Nat} (h : ∀ id ∈ ids, id ∈ s.references) :
    (swept held s).gone ids = s.gone ids := by
  unfold swept
  split
  · rfl
  · have hdead : (s.objects.filter (not ∘ isLive s held)).countP (fun o => ids.contains o.id) = 0 := by
      rw [List.countP_eq_zero]
      intro o ho hid
      have hlive := (List.mem_filter.mp ho).2
      have hreferred : s.references.contains o.id = true := by
        rw [List.contains_iff_mem] at hid ⊢
        exact h o.id hid
      simp only [Function.comp, isLive, hreferred, Bool.or_true, Bool.true_or, Bool.not_true] at hlive
      cases hlive
    simp only [List.partition_eq_filter_filter, State.gone, List.countP_append, List.countP_reverse, hdead]
    omega

/-- Objects of a variable that may not be written stay, whatever else a run does. -/
theorem Trail.gone_eq {L : Licence} {D : String → Prop} {s t : State} (h : Trail L D s t) {name : String}
    (hn : ¬L.names name) {slot : Slot} (hs : Column.Deep (D name) (s.scopes.column name) (some slot)) :
    t.gone slot.value.references = s.gone slot.value.references := by
  induction h with
  | refl => rfl
  | trans h₁ _ ih₁ ih₂ => exact (ih₂ ((h₁.unwritten hn).deep hs)).trans (ih₁ hs)
  | write _ _ _ => rfl
  | declare _ => rfl
  | nest _ ih => exact ih (.inl hs.mem)
  | sweep => exact Heap.gone_swept fun id hid => State.mem_references hs.mem hid
  | build _ => rfl
  | keep => rfl
  | busy _ ih => exact ih hs
  | aside hb => exact congrArg (List.countP _) hb.released

namespace Expr

/-- A right operand that does not have the variable of the left one as a target does not disturb it. -/
theorem undisturbed_of_writes {held : List Value} {l r : Expr} {s : State} (hs : s.AllNative NativeType.Confined)
    (h : ∀ name, l.root? = some name → name ∉ r.writes s.hasMethod) : Undisturbed held l r s := by
  intro name t slot hl hf
  have hleft := traces_operand (L := .confined s.hasMethod (l.writes s.hasMethod)) (D := fun _ => False) held l
    (fun _ hn => hn) s (Licence.allNative_confined hs _)
  rw [ends_of_ok hl] at hleft
  obtain ⟨hst, hroot⟩ := hleft
  have hname : name ∉ r.writes s.hasMethod := h name (hroot name rfl)
  have ht : t.AllNative (Licence.confined s.hasMethod (r.writes s.hasMethod)).Admits :=
    (hst.allNative (Licence.allNative_confined hs _)).mono fun _ hn => hn.rename
  have hright := traces_operand (L := .confined s.hasMethod (r.writes s.hasMethod)) (D := fun _ => False) held r
    (fun _ hn => hn) t ht
  constructor
  · intro p u hr
    rw [ends_of_ok hr] at hright
    have hcolumn := (hright.1.unwritten hname).eq id
    refine ⟨slot, ?_, rfl⟩
    rw [Scopes.find?_eq_column, hcolumn, ← Scopes.find?_eq_column]
    exact hf
  · have hmem : some slot ∈ t.scopes.column name := by
      rw [Scopes.find?_eq_column] at hf
      obtain ⟨c, hc, he⟩ := List.exists_of_findSome?_eq_some hf
      exact he ▸ hc
    have hdeep : Column.Deep False (t.scopes.column name) (some slot) := .inr ⟨id, hmem⟩
    refine (ends_after (P := fun u => u.gone slot.value.references = t.gone slot.value.references)).mp ?_
    exact hright.mono (fun _ _ hu => hu.1.gone_eq hname hdeep) fun _ _ hu => hu.gone_eq hname hdeep

/-- An operator evaluates its operands and reads variables among them when it is applied. If the right
operand leaves the variable that the left one names as it is, this is as if both had been read from left to
right; and so it is for an index. The count of allocations is left out: the two ways make a value for the
left operand at different times. -/
theorem operands_in_order (held : List Value) (line : Nat) (op : BinaryOp) (l r : Expr) (s : State)
    (hop : op ≠ .and ∧ op ≠ .or) :
    ((Expr.binary line op l r).eval held).uncounted s = (Expr.late held line op l r).uncounted s ∧
      (Undisturbed held l r s →
        ((Expr.binary line op l r).eval held).uncounted s = (Expr.inOrder held line op l r).uncounted s ∧
          (Expr.index line l r).eval held s = Expr.indexInOrder held line l r s) := by
  have hlate : ((Expr.binary line op l r).eval held).uncounted s = (Expr.late held line op l r).uncounted s := by
    have heval : (Expr.binary line op l r).eval held =
        (do let o ← l.operand held; let p ← r.operand (o.held ++ held); combine line op o p) := by
      have hne : ¬(op = .and ∨ op = .or) := fun h => h.elim hop.1 hop.2
      simp only [Expr.eval, Expr.operand, if_neg hne, bind_assoc, pure_bind, Operand.read, bind_pure]
    rw [heval]
    refine uncounted_bind fun o t _ => uncounted_bind fun p u _ => ?_
    exact uncounted_combine line op o p u
  refine ⟨hlate, fun h => ⟨?_, ?_⟩⟩
  · have horder : Expr.late held line op l r s = Expr.inOrder held line op l r s := by
      refine in_order h fun o p a b u ha hb => ?_
      rw [bind_of_ok (ha line), bind_of_ok (hb line)]
    rw [hlate]
    simp only [uncounted, horder]
  · have heval : (Expr.index line l r).eval held = (do
        let o ← l.operand held
        let p ← r.operand (o.held ++ held)
        let i ← lift line (← p.read r.line).integer?
        let c ← lift line (Collection.ofValue? (← o.read line))
        lift line (c.get i)) := by
      simp only [Expr.eval, Expr.operand, bind_assoc, pure_bind, Operand.read, bind_pure]
    rw [heval]
    refine in_order h fun o p a b u ha hb => ?_
    rw [bind_of_ok (hb r.line)]
    cases hi : b.integer? with
    | error c => rfl
    | ok i =>
      have hindex : lift line (Except.ok i : Except Fault.Cause Int64) u = .ok i u := rfl
      rw [bind_of_ok hindex, bind_of_ok (ha line), bind_of_ok hindex]

/-- The right operand changes `y` and passes on `x`, which is the left one. -/
theorem operands_in_order_apart :
    let x : Expr := .var 1 "x"
    let call : Expr := .member 1 (.var 1 "y") (.named "append") [x]
    let s : State :=
      ((State.fresh .bundled ⟨[], 0, []⟩ [] ⟨[], []⟩).declare "x" (.collection Ty.integer [.integer 1])).declare
      "y" (.collection Ty.integer [])
    BinaryOp.equal ≠ .and ∧ BinaryOp.equal ≠ .or ∧ Undisturbed [] x call s ∧
      ((Expr.binary 1 .equal x call).eval []).uncounted s = (Expr.inOrder [] 1 .equal x call).uncounted s ∧
      (Expr.index 1 x call).eval [] s = Expr.indexInOrder [] 1 x call s := by
  intro x call s
  have hs : s.AllNative NativeType.Confined := (State.confined_fresh .bundled ⟨[], 0, []⟩ [] ⟨[], []⟩).same rfl rfl
  have hwrites : ∀ name, x.root? = some name → name ∉ call.writes s.hasMethod := by
    intro name hroot
    cases hroot
    decide
  have h : Undisturbed [] x call s := undisturbed_of_writes hs hwrites
  have horder := (operands_in_order [] 1 .equal x call s ⟨nofun, nofun⟩).2 h
  exact ⟨nofun, nofun, h, horder.1, horder.2⟩

/-- Both operands name `x`, which is read after the call has appended to it. -/
theorem operand_read_late :
    let x : Expr := .var 2 "x"
    let call : Expr := .member 2 x (.named "append") [.constant 2 (.integer 2)]
    let s : State := (State.fresh .bundled ⟨[], 0, []⟩ [] ⟨[], []⟩).declare "x" (.collection Ty.integer [.integer 1])
    ∃ t u, (Expr.binary 2 .equal x call).eval [] s = .ok (.boolean true) t ∧
      Expr.inOrder [] 2 .equal x call s = .ok (.boolean false) u :=
  ⟨_, _, rfl, rfl⟩

end Expr
end Crunch
