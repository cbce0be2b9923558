import Crunch.Proofs.Run

/-!
# Crunch.Proofs.Steady

Computations that always end and do not touch the flag for the end of the script.

* `Run.Steady`: a computation ends with a result or an error, not at a bound, and the flag stays.
* `Heap.Alike`: the same objects are there, and the same ones are busy.
* `Heap.invokeTo_ends`: a method call ends. A call within it runs on an object that was idle before, so
  no more calls are nested than there are idle objects.
* `Expr`'s own operations, such as `Run.combine` and `Builtin.call`, are steady.
-/

namespace Crunch

open Run

/-- A computation ends, and leaves the flag for the end of the script as it was. -/
def Run.Steady {α : Type} (x : Run α) : Prop := ∀ s : State,
  Ends x s (fun _ t => t.stopped = s.stopped) fun h t => t.stopped = s.stopped ∧ h ≠ .outOfFuel

/-! ## Rules -/

namespace Run

variable {α β : Type} {line : Nat}

theorem steady_pure {a : α} : Steady (pure a) := fun _ => rfl

theorem steady_throw {f : Fault} : Steady (throw (.error f) : Run α) := fun _ => ⟨rfl, nofun⟩

theorem steady_fail {c : Fault.Cause} : Steady (fail line c : Run α) := fun _ => ⟨rfl, nofun⟩

theorem Steady.bind {x : Run α} {f : α → Run β} (hx : Steady x) (hf : ∀ a, Steady (f a)) : Steady (x >>= f) := by
  intro s
  refine ends_bind.mpr ((hx s).mono (fun a t ht => ?_) fun _ _ ht => ht)
  exact (hf a t).mono (fun _ _ hu => hu.trans ht) fun _ _ hu => ⟨hu.1.trans ht, hu.2⟩

theorem steady_get {f : State → Run α} (hf : ∀ s, Steady (f s)) : Steady (get >>= f) := fun s => hf s s

theorem steady_modify {f : State → State} (hf : ∀ s, (f s).stopped = s.stopped) : Steady (modify f) := hf

/-- A state that is read and put back with changes. -/
theorem steady_set {f : State → State} {g : State → Run α} (hf : ∀ s, (f s).stopped = s.stopped)
    (hg : ∀ s, Steady (g s)) : Steady (get >>= fun s => set (f s) >>= fun _ => g s) := by
  intro s
  refine (hg s (f s)).mono (fun _ _ ht => ht.trans (hf s)) fun _ _ ht => ⟨ht.1.trans (hf s), ht.2⟩

theorem steady_lift {r : Except Fault.Cause α} : Steady (lift line r) := by
  cases r with
  | ok a => exact steady_pure
  | error c => exact steady_fail

/-! ## Variables and operators -/

theorem steady_lookup {name : String} : Steady (lookup line name) := by
  refine steady_get fun s => ?_
  split
  · exact steady_pure
  · exact steady_fail

theorem steady_define {name : String} {v : Value} : Steady (define name v) := steady_modify fun _ => rfl

theorem steady_store {name : String} {v : Value} : Steady (store line name v) := by
  refine steady_get fun s => ?_
  split
  · exact steady_fail
  · exact steady_lift.bind fun _ => steady_modify fun _ => rfl

theorem steady_importType {name : String} : Steady (importType line name) := by
  refine steady_get fun s => ?_
  split
  · exact steady_fail
  · exact steady_modify fun _ => rfl

theorem steady_checkStop : Steady (checkStop line) := by
  intro s
  exact ends_checkStop.mpr ⟨fun _ => rfl, fun _ => ⟨rfl, nofun⟩⟩

theorem steady_read {o : Operand} : Steady (o.read line) := by
  cases o with
  | named name => exact steady_lookup
  | temporary v => exact steady_pure

theorem steady_binary {op : BinaryOp} {l r : Value} : Steady (binary line op l r) := by
  refine steady_set (f := fun s => { s with patterns := (op.apply l r s.patterns).2 }) (fun _ => rfl) fun s => ?_
  exact steady_lift

theorem steady_counted {operands : List Operand} {v : Value} : Steady (counted operands v) := by
  have hallocate : Steady allocate := fun _ => rfl
  unfold counted
  split
  · exact hallocate.bind fun _ => steady_pure
  · exact steady_pure.bind fun _ => steady_pure

theorem steady_combine {op : BinaryOp} {l r : Operand} : Steady (combine line op l r) := by
  unfold combine
  split
  · exact steady_read.bind fun _ => steady_lift
  · exact steady_read.bind fun _ => steady_lift
  · refine steady_read.bind fun a => steady_read.bind fun b => ?_
    exact steady_binary.bind fun _ => steady_counted

theorem steady_mutate {name : String} {m : Member} {args : List Value} : Steady (mutate line name m args) := by
  intro s
  rw [ends_mutate]
  exact ⟨fun slot _ => ⟨fun w _ => rfl, fun w c _ => ⟨rfl, nofun⟩⟩, fun _ => ⟨rfl, nofun⟩⟩

theorem steady_callMember {o : Operand} {m : Member} {args : List Value} : Steady (callMember line o m args) := by
  unfold callMember
  split
  · split
    · exact steady_mutate.bind fun _ => steady_pure
    · exact steady_lift.bind fun _ => steady_pure
  · exact steady_read.bind fun _ => steady_lift.bind fun _ => steady_pure

end Run

/-! ## Methods of objects -/

namespace Heap

variable {s t u : State} {line : Nat}

/-- Whether the object of a number is busy, if there is one. -/
def busy? (s : State) (id : Nat) : Option Bool := (find? s id).map (·.busy)

/-- States with the same objects, of which the same are busy, and with the same flag. -/
structure Alike (s t : State) : Prop where
  ids : t.objects.map (·.id) = s.objects.map (·.id)
  busy (id : Nat) : busy? t id = busy? s id
  stopped : t.stopped = s.stopped

theorem Alike.refl (s : State) : Alike s s := ⟨rfl, fun _ => rfl, rfl⟩

theorem Alike.trans (h : Alike s t) (h' : Alike t u) : Alike s u :=
  ⟨h'.ids.trans h.ids, fun id => (h'.busy id).trans (h.busy id), h'.stopped.trans h.stopped⟩

/-- Objects that no method runs on. -/
def idle (s : State) : Nat := (s.objects.map (·.id)).countP fun id => busy? s id == some false

theorem Alike.idle (h : Alike s t) : idle t = idle s := by
  unfold Heap.idle
  rw [h.ids]
  exact List.countP_congr fun id _ => by rw [h.busy id]

theorem alike_of_objects (ho : t.objects = s.objects) (hs : t.stopped = s.stopped) : Alike s t := by
  refine ⟨by rw [ho], fun id => ?_, hs⟩
  rw [busy?, busy?, find?, find?, ho]

theorem find?_map {f : Object → Object} (hf : ∀ o, (f o).id = o.id) (s : State) (id : Nat) :
    find? { s with objects := s.objects.map f } id = (find? s id).map f := by
  simp only [find?, List.find?_map]
  congr 2
  funext o
  exact congrArg (· == id) (hf o)

theorem ids_map {f : Object → Object} (hf : ∀ o, (f o).id = o.id) (os : List Object) :
    (os.map f).map (·.id) = os.map (·.id) := by
  rw [List.map_map]
  exact List.map_congr_left fun o _ => hf o

theorem busy?_marked (id : Nat) (b : Bool) (s : State) (i : Nat) :
    busy? (marked id b s) i = if i = id then (busy? s i).map fun _ => b else busy? s i := by
  rw [busy?, busy?, marked, find?_map fun o => by split <;> rfl]
  cases h : find? s i with
  | none => simp
  | some o =>
    have ho : o.id = i := beq_iff_eq.mp (List.find?_some (p := fun o : Object => o.id == i) h)
    by_cases hi : i = id
    · simp [ho, hi]
    · simp [ho, hi]

theorem ids_marked (id : Nat) (b : Bool) (s : State) : (marked id b s).objects.map (·.id) = s.objects.map (·.id) :=
  ids_map (fun o => by split <;> rfl) s.objects

/-- A test that fewer elements pass. -/
theorem countP_lt {α : Type} {l : List α} {p q : α → Bool} {a : α} (h : ∀ x ∈ l, q x → p x) (ha : a ∈ l)
    (hp : p a) (hq : ¬q a) : l.countP q < l.countP p := by
  obtain ⟨l₁, l₂, rfl⟩ := List.append_of_mem ha
  have h₁ : l₁.countP q ≤ l₁.countP p :=
    List.countP_mono_left fun x hx => h x (List.mem_append.mpr (.inl hx))
  have h₂ : l₂.countP q ≤ l₂.countP p :=
    List.countP_mono_left fun x hx => h x (List.mem_append.mpr (.inr (List.mem_cons_of_mem _ hx)))
  simp only [List.countP_append, List.countP_cons, if_pos hp, if_neg hq]
  omega

/-- An object that becomes busy is idle no more. -/
theorem idle_marked {id : Nat} (h : busy? s id = some false) : idle (marked id true s) < idle s := by
  have hmem : id ∈ s.objects.map (·.id) := by
    obtain ⟨o, ho, -⟩ := Option.map_eq_some_iff.mp h
    have hid := List.find?_some (p := fun o : Object => o.id == id) ho
    exact List.mem_map.mpr ⟨o, List.mem_of_find?_eq_some ho, beq_iff_eq.mp hid⟩
  unfold idle
  rw [ids_marked]
  refine countP_lt (fun i _ hi => ?_) hmem (by rw [h]; rfl) (by rw [busy?_marked, if_pos rfl, h]; decide)
  rw [busy?_marked] at hi
  split at hi
  · cases hb : busy? s i <;> simp [hb] at hi
  · exact hi

theorem busy?_keep (id : Nat) (contents : Instance) (s : State) (i : Nat) :
    busy? { s with objects := s.objects.map fun o => if o.id = id then { o with contents := contents } else o } i =
      busy? s i := by
  rw [busy?, busy?, find?_map fun o => by split <;> rfl, Option.map_map]
  refine congrArg (fun f : Object → Bool => (find? s i).map f) (funext fun o => ?_)
  simp only [Function.comp]
  split <;> rfl

/-- An object that was idle is idle again once it is free. -/
theorem Alike.freed {id : Nat} (hs : busy? s id = some false) (h : Alike (marked id true s) t) :
    Alike s (marked id false t) := by
  refine ⟨(ids_marked id false t).trans (h.ids.trans (ids_marked id true s)), fun i => ?_, h.stopped⟩
  rw [busy?_marked, h.busy i, busy?_marked]
  split
  · rename_i hi
    rw [hi, hs]
    rfl
  · rfl

/-- A computation ends, with the same objects busy as before. -/
def Returns (x : Run Value) (s : State) : Prop :=
  Ends x s (fun _ t => Alike s t) fun h t => Alike s t ∧ h ≠ .outOfFuel

theorem Returns.from {x : Run Value} (hs : Alike s t) (h : Returns x t) :
    Ends x t (fun _ u => Alike s u) fun h u => Alike s u ∧ h ≠ .outOfFuel :=
  h.mono (fun _ _ hu => hs.trans hu) fun _ _ hu => ⟨hs.trans hu.1, hu.2⟩

/-- A method ends when the calls that it makes do. -/
theorem perform_ends {callee : Call} {id : Nat}
    (hc : ∀ t, Alike s t → ∀ object method args, Returns (callee object method args) t) (a : Action)
    (h : Alike s t) :
    Ends (perform line callee id a) t (fun _ u => Alike s u) fun e u => Alike s u ∧ e ≠ .outOfFuel := by
  induction a generalizing t with
  | done v => exact h
  | fail c => exact ⟨h, nofun⟩
  | keep i next ih =>
    refine ends_bind.mpr (ih (h.trans ⟨?_, busy?_keep id i t, rfl⟩))
    exact ids_map (fun o => by split <;> rfl) t.objects
  | store into v next ih =>
    simp only [perform]
    cases into.origin with
    | none => exact ih _ h
    | some name =>
      have hstored : ∀ u : State, u.objects = t.objects ∧ u.stopped = t.stopped → Alike s u := fun u hu =>
        h.trans (alike_of_objects hu.1 hu.2)
      rw [ends_bind, ends_outcome, ends_store]
      refine ⟨fun slot _ => ⟨fun slot' _ => ?_, fun c _ => ?_⟩, fun _ => ?_⟩
      · exact ih _ (hstored _ ⟨rfl, rfl⟩)
      · exact ih _ h
      · exact ih _ h
  | call object method args next ih =>
    refine ends_bind.mpr (ends_outcome.mpr (((hc t h object method args).from h).mono (fun v u hu => ih _ hu) ?_))
    intro e u hu
    cases e with
    | error f => exact ih _ hu.1
    | outOfFuel => exact absurd rfl hu.2
  | look next ih => exact ih _ h
  | write d next ih => exact ih (h.trans (alike_of_objects rfl rfl))

/-- A method call ends when fewer objects are idle than calls may be nested. -/
theorem invokeTo_ends {depth id method : Nat} {args : List Argument} (h : idle s < depth) :
    Returns (invokeTo line depth id method args) s := by
  induction depth generalizing s id method args with
  | zero => exact absurd h (Nat.not_lt_zero _)
  | succ depth ih =>
    refine ends_bind.mpr (ends_get.mpr ?_)
    cases ho : find? s id with
    | none => exact ⟨.refl s, nofun⟩
    | some o =>
      simp only
      split
      · exact ⟨.refl s, nofun⟩
      · rename_i hb
        have hidle : busy? s id = some false := by rw [busy?, ho, Option.map_some, Bool.eq_false_iff.mpr hb]
        refine ends_whileBusy.mpr ((perform_ends (fun t ht _ _ _ => ih ?_) _ (.refl _)).mono ?_ ?_)
        · have := ht.idle
          have := idle_marked hidle
          omega
        · exact fun _ _ ht => ht.freed hidle
        · exact fun _ _ ht => ⟨ht.1.freed hidle, ht.2⟩

/-- The bound on nested calls is never reached: each one makes another object busy. -/
theorem steady_invoke {id method : Nat} {args : List Argument} : Steady (invoke line id method args) := by
  intro s
  refine ends_bind.mpr (ends_get.mpr ?_)
  have hidle : idle s < s.objects.length + 1 := by
    have := List.countP_le_length (p := fun id => busy? s id == some false) (l := s.objects.map (·.id))
    rw [List.length_map] at this
    exact Nat.lt_succ_of_le this
  exact (invokeTo_ends hidle).mono (fun _ _ h => h.stopped) fun _ _ h => ⟨h.1.stopped, h.2⟩

theorem steady_sweep {held : List Value} : Steady (sweep held) := by
  refine steady_modify fun s => ?_
  unfold swept
  split <;> rfl

theorem steady_construct {t : NativeType} {number : Nat} {args : List Value} :
    Steady (construct line t number args) := by
  intro s
  refine ends_bind.mpr (ends_get.mpr (ends_bind.mpr (ends_lift.mpr ⟨fun built _ => rfl, fun c _ => ⟨rfl, nofun⟩⟩)))

end Heap

namespace Run

variable {line : Nat}

theorem steady_callObject {held : List Value} {native : String} {id : Nat} {name : String} {args : List Argument} :
    Steady (callObject line held native id name args) := by
  refine steady_get fun s => ?_
  split
  · exact steady_fail
  · split
    · exact steady_fail
    · exact Heap.steady_sweep.bind fun _ => Heap.steady_invoke

theorem steady_construct {held : List Value} {t : NativeType} {name : String} {args : List Value} :
    Steady (construct line held t name args) := by
  unfold construct
  split
  · exact steady_fail
  · exact Heap.steady_sweep.bind fun _ => Heap.steady_construct

end Run

/-! ## Functions -/

namespace Builtin

variable {line : Nat}

theorem steady_drawRandom {args : List Value} : Steady (drawRandom line args) := by
  cases args with
  | nil => exact fun _ => rfl
  | cons bound rest =>
    refine steady_lift.bind fun n => ?_
    split
    · exact steady_fail
    · exact fun _ => rfl

theorem steady_readLine : Steady (readLine line) := by
  refine steady_checkStop.bind fun _ s => ?_
  simp only [ends_bind, ends_get]
  split
  · exact rfl
  · simp only [ends_bind, ends_set]
    split
    · exact rfl
    · exact ⟨rfl, fun h => by cases h⟩

theorem steady_readInput {args : List Argument} : Steady (readInput line args) := by
  cases args with
  | nil => exact steady_fail
  | cons a rest =>
    refine steady_readLine.bind fun text => ?_
    split
    · exact steady_pure
    · split
      · exact steady_fail
      · exact steady_store.bind fun _ => steady_pure

theorem steady_call {b : Builtin} {args : List Argument} : Steady (b.call line args) := by
  have hprint : ∀ text, Steady (Run.print text) := fun _ _ => rfl
  unfold call
  simp only
  split
  · exact steady_fail
  · split
    · exact steady_pure
    · unfold perform
      split
      · exact steady_drawRandom
      · exact steady_readInput
      · exact (hprint _).bind fun _ => steady_pure
      · exact steady_lift

end Builtin
end Crunch
