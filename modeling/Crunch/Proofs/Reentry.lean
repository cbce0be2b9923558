import Crunch.Proofs.Lifetime

/-!
# Crunch.Proofs.Reentry

An object is busy exactly while one of its methods runs.

* `Heap.Acts`: what methods do, by the stack of the objects whose methods run. No object is marked in it: a call is
  refused if its object is on the stack, and for no other reason.
* `Heap.Running`: the marks of a state are those of a stack.
* `Heap.Obeys`: from a state with the marks of a stack, something does what an action does by the stack, and the marks
  are the same afterwards. `Heap.obeys_invokeTo` says so of calls.
* `Heap.busy_while_running`: so it is for a call that no method makes, however deep the calls in it are nested.
-/

namespace Crunch
namespace Heap

open Run

/-- The state with new contents of an object. -/
def kept (id : Nat) (contents : Instance) (s : State) : State :=
  { s with objects := s.objects.map fun o => if o.id = id then { o with contents := contents } else o }

/-- What storing into the variable of an argument gives, if there is one. -/
def stored (into : Argument) (v : Value) (s : State) : Except Fault.Cause Unit × State :=
  match into.origin with
  | none => (.error (.mismatch .notAVariable), s)
  | some name =>
    match s.scopes.find? name with
    | none => (.error (.unknownVariable name), s)
    | some slot =>
      match slot.store v with
      | .ok slot => (.ok (), { s with scopes := s.scopes.update name slot })
      | .error c => (.error c, s)

/-- What an action does while methods of the objects in a list run, the latest first. -/
inductive Acts : List Nat → Action → State → Except Fault.Cause Value → State → Prop where
  | done {stack : List Nat} {v : Value} {s : State} : Acts stack (.done v) s (.ok v) s
  | fail {stack : List Nat} {c : Fault.Cause} {s : State} : Acts stack (.fail c) s (.error c) s
  | keep {id : Nat} {stack : List Nat} {i : Instance} {next : Action} {s t : State} {r : Except Fault.Cause Value} :
      Acts (id :: stack) next (kept id i s) r t → Acts (id :: stack) (.keep i next) s r t
  | store {stack : List Nat} {into : Argument} {v : Value} {next : Except Fault.Cause Unit → Action} {s t : State}
      {r : Except Fault.Cause Value} : Acts stack (next (stored into v s).1) (stored into v s).2 r t →
      Acts stack (.store into v next) s r t
  | look {stack : List Nat} {next : Disk → Action} {s t : State} {r : Except Fault.Cause Value} :
      Acts stack (next s.disk) s r t → Acts stack (.look next) s r t
  | write {stack : List Nat} {d : Disk} {next : Action} {s t : State} {r : Except Fault.Cause Value} :
      Acts stack next { s with disk := d } r t → Acts stack (.write d next) s r t
  | released {stack : List Nat} {id method : Nat} {args : List Argument} {next : Except Fault.Cause Value → Action}
      {s t : State} {r : Except Fault.Cause Value} : find? s id = none →
      Acts stack (next (.error (.native "object" "object was released"))) s r t →
      Acts stack (.call id method args next) s r t
  /-- The method does not run, and nothing changes. -/
  | refused {stack : List Nat} {id method : Nat} {args : List Argument} {next : Except Fault.Cause Value → Action}
      {o : Object} {s t : State} {r : Except Fault.Cause Value} : find? s id = some o → id ∈ stack →
      Acts stack (next (.error (.native o.native.name "object is busy"))) s r t →
      Acts stack (.call id method args next) s r t
  /-- The method runs, and its error is a result for the action that called it. -/
  | runs {stack : List Nat} {id method : Nat} {args : List Argument} {next : Except Fault.Cause Value → Action}
      {o : Object} {s t u : State} {r r' : Except Fault.Cause Value} : find? s id = some o → id ∉ stack →
      Acts (id :: stack) (o.native.invoke o.contents method args) s r' t → Acts stack (next r') t r u →
      Acts stack (.call id method args next) s r u

variable {line id method : Nat} {stack : List Nat} {args : List Argument} {s t u : State}
  {r r' : Except Fault.Cause Value}

namespace Acts

/-- An action has one result. -/
theorem unique {a : Action} (h : Acts stack a s r t) (h' : Acts stack a s r' u) : r = r' ∧ t = u := by
  induction h generalizing r' u with
  | done =>
    cases h'
    exact ⟨rfl, rfl⟩
  | fail =>
    cases h'
    exact ⟨rfl, rfl⟩
  | keep _ ih =>
    cases h' with
    | keep h' => exact ih h'
  | store _ ih =>
    cases h' with
    | store h' => exact ih h'
  | look _ ih =>
    cases h' with
    | look h' => exact ih h'
  | write _ ih =>
    cases h' with
    | write h' => exact ih h'
  | released hf _ ih =>
    cases h' with
    | released _ h' => exact ih h'
    | refused hf' _ _ | runs hf' _ _ _ =>
      rw [hf] at hf'
      cases hf'
  | refused hf hid _ ih =>
    cases h' with
    | released hf' _ =>
      rw [hf] at hf'
      cases hf'
    | refused hf' _ h' =>
      rw [hf] at hf'
      cases hf'
      exact ih h'
    | runs _ hid' _ _ => exact absurd hid hid'
  | runs hf hid _ _ ihmethod ih =>
    cases h' with
    | released hf' _ =>
      rw [hf] at hf'
      cases hf'
    | refused _ hid' _ => exact absurd hid' hid
    | runs hf' _ hm h' =>
      rw [hf] at hf'
      cases hf'
      obtain ⟨rfl, rfl⟩ := ihmethod hm
      exact ih h'

theorem ofExcept_iff : Acts stack (Action.ofExcept r) s r' t ↔ r' = r ∧ t = s := by
  constructor
  · intro h
    cases r with
    | ok v =>
      cases h
      exact ⟨rfl, rfl⟩
    | error c =>
      cases h
      exact ⟨rfl, rfl⟩
  · rintro ⟨rfl, rfl⟩
    cases r' with
    | ok v => exact .done
    | error c => exact .fail

/-- A call, and what is done with its result. -/
theorem call {next : Except Fault.Cause Value → Action} (h : Acts stack (.call id method args Action.ofExcept) s r' t)
    (hnext : Acts stack (next r') t r u) : Acts stack (.call id method args next) s r u := by
  cases h with
  | released hf h =>
    obtain ⟨rfl, rfl⟩ := ofExcept_iff.mp h
    exact .released hf hnext
  | refused hf hid h =>
    obtain ⟨rfl, rfl⟩ := ofExcept_iff.mp h
    exact .refused hf hid hnext
  | runs hf hid hm h =>
    obtain ⟨rfl, rfl⟩ := ofExcept_iff.mp h
    exact .runs hf hid hm hnext

end Acts

/-! ## Marks -/

/-- The objects of the stack are marked as busy, and no others. -/
def Running (stack : List Nat) (s : State) : Prop := ∀ o ∈ s.objects, o.busy = decide (o.id ∈ stack)

/-- The state without marks. -/
def unmarked (s : State) : State := { s with objects := s.objects.map fun o => { o with busy := false } }

theorem running_nil : Running [] s ↔ ∀ id, ¬s.Busy id := by
  constructor
  · rintro h id ⟨o, ho, -, hbusy⟩
    rw [h o ho] at hbusy
    cases hbusy
  · intro h o ho
    exact Bool.eq_false_iff.mpr fun hbusy => h o.id ⟨o, ho, rfl, hbusy⟩

theorem unmarked_of_running_nil (h : Running [] s) : unmarked s = s := by
  have hmap : s.objects.map (fun o => { o with busy := false }) = s.objects :=
    (List.map_congr_left fun o ho => by
      have hbusy := h o ho
      obtain ⟨id, native, contents, busy⟩ := o
      cases hbusy
      rfl).trans (List.map_id _)
  unfold unmarked
  rw [hmap]

theorem find?_unmarked (s : State) (id : Nat) :
    find? (unmarked s) id = (find? s id).map fun o => { o with busy := false } :=
  find?_map (f := fun o => { o with busy := false }) (fun _ => rfl) s id

theorem unmarked_marked (id : Nat) (b : Bool) (s : State) : unmarked (marked id b s) = unmarked s := by
  unfold unmarked marked
  rw [List.map_map]
  congr 2
  funext o
  dsimp only [Function.comp]
  split <;> rfl

theorem unmarked_kept (id : Nat) (contents : Instance) (s : State) :
    unmarked (kept id contents s) = kept id contents (unmarked s) := by
  unfold unmarked kept
  rw [List.map_map, List.map_map]
  congr 2
  funext o
  dsimp only [Function.comp]
  split <;> rfl

theorem Running.map (h : Running stack s) {f : Object → Object} {stack' : List Nat}
    (hf : ∀ o ∈ s.objects, o.busy = decide (o.id ∈ stack) → (f o).busy = decide ((f o).id ∈ stack')) :
    Running stack' { s with objects := s.objects.map f } := by
  intro o ho
  obtain ⟨o', ho', rfl⟩ := List.mem_map.mp ho
  exact hf o' ho' (h o' ho')

theorem Running.kept (h : Running stack s) (id : Nat) (contents : Instance) : Running stack (kept id contents s) := by
  refine h.map fun o _ hbusy => ?_
  split <;> exact hbusy

/-- An object that a method starts to run on is put on the stack. -/
theorem Running.push (h : Running stack s) (id : Nat) : Running (id :: stack) (marked id true s) := by
  refine h.map fun o _ hbusy => ?_
  split
  · rename_i hid
    simp [hid]
  · rename_i hid
    simp [hid, hbusy]

/-- When its method ends, it is taken off. -/
theorem Running.pop (h : Running (id :: stack) s) (hid : id ∉ stack) : Running stack (marked id false s) := by
  refine h.map fun o _ hbusy => ?_
  split
  · rename_i ho
    simp [ho, hid]
  · rename_i ho
    simpa [ho] using hbusy

theorem Running.busy_iff (h : Running stack s) {o : Object} (ho : find? s id = some o) :
    o.busy = true ↔ id ∈ stack := by
  have hid : o.id = id := beq_iff_eq.mp (List.find?_some (p := fun o : Object => o.id == id) ho)
  rw [h o (List.mem_of_find?_eq_some ho), hid, decide_eq_true_iff]

/-! ## Calls by their marks -/

/-- From states with the marks of a stack, a computation ends as an action does by the stack, with the same marks. -/
def Obeys (line : Nat) (stack : List Nat) (x : Run Value) (a : Action) : Prop :=
  ∀ s, Running stack s →
    Ends x s (fun v t => Running stack t ∧ Acts stack a (unmarked s) (.ok v) (unmarked t)) fun h t =>
      ∀ f, h = .error f → f.line = line ∧ Running stack t ∧ Acts stack a (unmarked s) (.error f.cause) (unmarked t)

/-- An action that does in one state what another one does. -/
theorem Obeys.at {x : Run Value} {a b : Action} (h : Obeys line stack x a) (ht : Running stack t)
    (hb : ∀ r u, Acts stack a (unmarked t) r u → Acts stack b (unmarked s) r u) :
    Ends x t (fun v u => Running stack u ∧ Acts stack b (unmarked s) (.ok v) (unmarked u)) fun h u =>
      ∀ f, h = .error f → f.line = line ∧ Running stack u ∧ Acts stack b (unmarked s) (.error f.cause) (unmarked u) :=
  (h t ht).mono (fun _ _ hu => ⟨hu.1, hb _ _ hu.2⟩) fun _ _ hu f hf =>
    let ⟨hline, hrunning, hacts⟩ := hu f hf
    ⟨hline, hrunning, hb _ _ hacts⟩

theorem objects_stored (into : Argument) (v : Value) (s : State) : (stored into v s).2.objects = s.objects := by
  unfold stored
  cases into.origin with
  | none => rfl
  | some name =>
    dsimp only
    cases s.scopes.find? name with
    | none => rfl
    | some slot =>
      dsimp only
      cases slot.store v <;> rfl

/-- Storing does not look at marks. -/
theorem stored_unmarked (into : Argument) (v : Value) (s : State) :
    stored into v (unmarked s) = ((stored into v s).1, unmarked (stored into v s).2) := by
  have hscopes : (unmarked s).scopes = s.scopes := rfl
  unfold stored
  rw [hscopes]
  cases into.origin with
  | none => rfl
  | some name =>
    dsimp only
    cases s.scopes.find? name with
    | none => rfl
    | some slot =>
      dsimp only
      cases slot.store v <;> rfl

/-- A method that stores goes on with what storing gives. -/
theorem ends_perform_stored {callee : Call} {into : Argument} {v : Value} {next : Except Fault.Cause Unit → Action}
    {Q : Value → State → Prop} {E : Halt Fault → State → Prop} :
    Ends (perform line callee id (.store into v next)) s Q E ↔
      Ends (perform line callee id (next (stored into v s).1)) (stored into v s).2 Q E := by
  simp only [perform, stored]
  cases into.origin with
  | none => rfl
  | some name =>
    simp only [ends_bind, ends_outcome, ends_store, ends_pure]
    have hok : (Except.ok () : Except Fault Unit).mapError (·.cause) = .ok () := rfl
    have herror : ∀ c, (Except.error ⟨line, c⟩ : Except Fault Unit).mapError (·.cause) = .error c := fun _ => rfl
    cases s.scopes.find? name with
    | none => simp [herror]
    | some slot => cases hs : slot.store v <;> simp [hs, hok, herror]

/-- A method obeys the stack if the calls that it makes do. -/
theorem obeys_perform {callee : Call}
    (hc : ∀ object method args,
      Obeys line (id :: stack) (callee object method args) (.call object method args Action.ofExcept))
    (a : Action) : Obeys line (id :: stack) (perform line callee id a) a := by
  induction a with
  | done v => exact fun s hs => ⟨hs, .done⟩
  | fail c =>
    rintro s hs f ⟨⟩
    exact ⟨rfl, hs, .fail⟩
  | keep i next ih =>
    intro s hs
    refine ends_bind.mpr (Obeys.at (t := kept id i s) ih (hs.kept id i) fun r u h => .keep ?_)
    rwa [← unmarked_kept]
  | store into v next ih =>
    intro s hs
    have hstored : Running (id :: stack) (stored into v s).2 := fun o ho => hs o (objects_stored into v s ▸ ho)
    refine ends_perform_stored.mpr ((ih _).at hstored fun r u h => .store ?_)
    rwa [stored_unmarked]
  | call object method args next ih =>
    intro s hs
    refine ends_bind.mpr (ends_outcome.mpr ((hc object method args s hs).mono ?_ ?_))
    · rintro v t ⟨ht, hcall⟩
      exact (ih _).at ht fun r u h => hcall.call h
    · intro h t hend
      cases h with
      | outOfFuel => exact nofun
      | error f =>
        obtain ⟨-, ht, hcall⟩ := hend f rfl
        exact (ih _).at ht fun r u h => hcall.call h
  | look next ih => exact fun s hs => (ih s.disk).at hs fun r u h => .look h
  | write d next ih =>
    intro s hs
    exact ends_bind.mpr (Obeys.at (t := { s with disk := d }) ih hs fun r u h => .write h)

/-- A call obeys the stack, however deep the calls in it are nested. -/
theorem obeys_invokeTo (depth : Nat) (stack : List Nat) (id method : Nat) (args : List Argument) :
    Obeys line stack (invokeTo line depth id method args) (.call id method args Action.ofExcept) := by
  induction depth generalizing stack id method args with
  | zero => exact fun s hs f hf => by cases hf
  | succ depth ih =>
    intro s hs
    refine ends_bind.mpr (ends_get.mpr ?_)
    have hfound := find?_unmarked s id
    cases ho : find? s id with
    | none =>
      rw [ho] at hfound
      rintro f ⟨⟩
      exact ⟨rfl, hs, .released hfound .fail⟩
    | some o =>
      rw [ho] at hfound
      dsimp only
      split
      · rename_i hbusy
        rintro f ⟨⟩
        exact ⟨rfl, hs, .refused hfound ((hs.busy_iff ho).mp hbusy) .fail⟩
      · rename_i hbusy
        have hid : id ∉ stack := fun h => hbusy ((hs.busy_iff ho).mpr h)
        have hmethod := obeys_perform (fun _ _ _ => ih _ _ _ _) (o.native.invoke o.contents method args)
          (marked id true s) (hs.push id)
        rw [unmarked_marked] at hmethod
        refine ends_whileBusy.mpr (hmethod.mono ?_ ?_)
        · rintro v t ⟨ht, hacts⟩
          rw [← unmarked_marked id false t] at hacts
          exact ⟨ht.pop hid, .runs hfound hid hacts (Acts.ofExcept_iff.mpr ⟨rfl, rfl⟩)⟩
        · intro h t hend f hf
          obtain ⟨hline, ht, hacts⟩ := hend f hf
          rw [← unmarked_marked id false t] at hacts
          exact ⟨hline, ht.pop hid, .runs hfound hid hacts (Acts.ofExcept_iff.mpr ⟨rfl, rfl⟩)⟩

end Heap

/-- Scripts leave no object busy, whatever they end with. -/
theorem Program.not_busy_after (passes : Nat) (p : Program) {s : State} (hs : ∀ id, ¬s.Busy id) (id : Nat) :
    ¬((p.exec passes).after s).Busy id := by
  have htraces := Program.traces_exec passes p s (Licence.allNative_any s)
  have hbefore : ∀ {t}, Trail .any (fun _ => True) s t → ¬t.Busy id := fun ht hbusy => hs id (ht.busy_before hbusy)
  exact Run.ends_after.mp (htraces.mono (fun _ t ht => hbefore ht.1) fun _ t ht => hbefore ht)

namespace Heap

variable {line id method : Nat} {args : List Argument} {s : State}

/-- Where no method runs, a call of a method ends as it does by the stack, and no object is busy then. -/
theorem invoke_acts (hs : Running [] s) :
    ∃ r t, invoke line id method args s = Run.lift line r t ∧ Running [] t ∧
      Acts [] (.call id method args Action.ofExcept) s r t := by
  have hobeys : Obeys line [] (invokeTo line (s.objects.length + 1) id method args) _ :=
    obeys_invokeTo (s.objects.length + 1) [] id method args
  have hacts := hobeys s hs
  have hends : Run.Ends (invoke line id method args) s _ _ := steady_invoke s
  rw [unmarked_of_running_nil hs] at hacts
  change Run.Ends (invoke line id method args) s _ _ at hacts
  unfold Run.Ends at hacts hends
  cases hx : invoke line id method args s with
  | ok v t =>
    rw [hx] at hacts
    obtain ⟨ht, hacts⟩ := hacts
    rw [unmarked_of_running_nil ht] at hacts
    exact ⟨.ok v, t, rfl, ht, hacts⟩
  | error h t =>
    rw [hx] at hacts hends
    cases h with
    | outOfFuel => exact absurd rfl hends.2
    | error f =>
      obtain ⟨rfl, ht, hend⟩ := hacts f rfl
      rw [unmarked_of_running_nil ht] at hend
      exact ⟨.error f.cause, t, rfl, ht, hend⟩

/-- Where no method runs, a call of a method ends with what it gives by the stack of the running methods, and with
nothing else. No object is busy then, and none is after a script. -/
theorem busy_while_running {s : State} (hs : ∀ id, ¬s.Busy id) :
    (∀ line id method args, ∃ r t, invoke line id method args s = Run.lift line r t ∧ (∀ id, ¬t.Busy id) ∧
      ∀ r' t', Acts [] (.call id method args Action.ofExcept) s r' t' ↔ r' = r ∧ t' = t) ∧
    ∀ (passes : Nat) (p : Program) (id : Nat), ¬((p.exec passes).after s).Busy id := by
  refine ⟨fun line id method args => ?_, fun passes p id => p.not_busy_after passes hs id⟩
  obtain ⟨r, t, hinvoke, ht, hacts⟩ := invoke_acts (running_nil.mpr hs)
  refine ⟨r, t, hinvoke, running_nil.mp ht, fun r' t' => ⟨fun h => h.unique hacts, ?_⟩⟩
  rintro ⟨rfl, rfl⟩
  exact hacts

/-- Two objects of one type, whose method calls the first object that it is given and gives it the others. The first
one calls the second one, which calls back and is refused. -/
theorem busy_while_running_back :
    let relay : NativeType :=
      { interface := ⟨"relay", [], []⟩
        construct := fun _ _ d => .ok (.integer 0, d)
        invoke := fun _ _ args =>
          match args with
          | ⟨.object _ id, _⟩ :: rest => .call id 0 rest Action.ofExcept
          | _ => .done (.boolean true)
        destroy := fun _ d => d }
    let s : State :=
      { State.fresh .bundled ⟨[], 0, []⟩ [] ⟨[], []⟩ with
        objects := [⟨0, relay, .integer 0, false⟩, ⟨1, relay, .integer 0, false⟩] }
    let args : List Argument := [⟨.object "relay" 1, none⟩, ⟨.object "relay" 0, none⟩]
    (∀ id, ¬s.Busy id) ∧
      invoke 3 0 0 args s = .error (.error ⟨3, .native "relay" "object is busy"⟩) s ∧
      Acts [] (.call 0 0 args Action.ofExcept) s (.error (.native "relay" "object is busy")) s ∧
      invoke 3 0 0 (args.take 1) s = .ok (.boolean true) s := by
  intro relay s args
  have hs : ∀ id, ¬s.Busy id := by
    rintro id ⟨o, ho, -, hbusy⟩
    simp only [s, List.mem_cons, List.not_mem_nil, or_false] at ho
    rcases ho with rfl | rfl <;> cases hbusy
  have hback : invoke 3 0 0 args s = .error (.error ⟨3, .native "relay" "object is busy"⟩) s := rfl
  obtain ⟨r, t, hinvoke, -, hacts⟩ := (busy_while_running hs).1 3 0 0 args
  rw [hback] at hinvoke
  refine ⟨hs, hback, ?_, rfl⟩
  cases r with
  | ok v => cases hinvoke
  | error c =>
    cases hinvoke
    exact (hacts _ _).mpr ⟨rfl, rfl⟩

end Heap
end Crunch
