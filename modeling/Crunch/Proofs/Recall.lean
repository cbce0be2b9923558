import Crunch.Proofs.Typed

/-!
# Crunch.Proofs.Recall

Matches on a state whose cache of patterns scripts use as well.

* `Session.matching_eq`: a match changes nothing but the cache.
* `Activity.leads_after`: activities only ask the cache for patterns.
* `Event`: a match that is asked for, or an activity.
* `Event.cache_invisible`: on any engine, all matches are answered as if there were no cache, and the
  cache stays small and holds the patterns of their texts.
-/

namespace Crunch

/-! ## Matches on a state -/

namespace Run

/-- What goes along trails only asks the cache for patterns. -/
theorem Traces.leads {α : Type} {D : String → Prop} {x : Run α} {P : α → Prop} (h : Traces .any D x P) (s : State) :
    s.patterns.Leads (x.after s).patterns := by
  rw [← ends_after (P := fun t => s.patterns.Leads t.patterns)]
  exact (h s (Licence.allNative_any s)).mono (fun _ _ h => h.1.patterns) fun _ _ h => h.patterns

end Run

theorem Heap.patterns_swept (held : List Value) (s : State) : (swept held s).patterns = s.patterns := by
  unfold swept
  split <;> rfl

namespace Session

theorem patterns_step {α : Type} (x : Run α) (s : State) : (step x s).2.patterns = (x.after s).patterns := by
  rw [step_snd, Heap.patterns_swept]

variable {engine : Pattern.Engine} {line : Nat} {subject source : Value} {s : State}

theorem matching_eq : matching line subject source s =
    ((Operation.matching subject source s.patterns).1.mapError fun c => .failed ⟨line, c⟩,
      Heap.swept [] { s with patterns := (Operation.matching subject source s.patterns).2 }) := by
  cases hm : Operation.matching subject source s.patterns with
  | mk outcome patterns =>
    have hrun : Run.matching line subject source s = Run.lift line outcome { s with patterns := patterns } := by
      rw [Run.matching, Run.get_bind, hm]
      rfl
    rw [matching, step, hrun]
    cases outcome with
    | ok v => rfl
    | error c => rfl

/-- Where the cache is kept, a match is answered as if there were none. -/
theorem answer_matching (h : s.patterns.Kept engine) : (matching line subject source s).1 =
    (Operation.matchingAnew engine subject source).mapError fun c => .failed ⟨line, c⟩ := by
  rw [matching_eq, Operation.matching_eq_anew h]

theorem leads_matching : s.patterns.Leads (matching line subject source s).2.patterns := by
  rw [matching_eq, Heap.patterns_swept]
  exact Operation.leads_matching

end Session

/-! ## Activities -/

namespace Activity

/-- Whether an activity leaves the cache to the matches of scripts. -/
def SparesPatterns : Activity → Prop
  | .other f _ => ∀ s, (f s).patterns = s.patterns
  | _ => True

theorem leads_step {α : Type} {D : String → Prop} {x : Run α} {P : α → Prop} (h : Run.Traces .any D x P) (s : State) :
    s.patterns.Leads (Session.step x s).2.patterns := by
  rw [Session.patterns_step]
  exact h.leads s

/-- Activities ask the cache for patterns, and do nothing else to it. -/
theorem leads_after (s : State) {a : Activity} (h : a.SparesPatterns) : s.patterns.Leads (a.after s).patterns := by
  cases a with
  | script checked passes source =>
    rcases after_script checked passes source s with h | ⟨p, -, -, h⟩
    · rw [h]
      exact .refl
    · rw [h]
      exact leads_step (Program.traces_exec passes p) s
  | program passes p => exact (Program.traces_exec passes p).leads s
  | define name v => exact leads_step (Run.traces_define (D := fun _ => True) trivial) s
  | store line name v => exact leads_step (Run.traces_store (D := fun _ => True) trivial) s
  | evaluate held e => exact (e.traces_eval (D := fun _ => True) held fun _ _ => trivial).leads s
  | carryOut held passes st => exact (st.traces_exec held passes fun _ _ => trivial).leads s
  | declare name v => exact (Run.traces_define (D := fun _ => True) trivial).leads s
  | assign line name v => exact (Run.traces_store (D := fun _ => True) trivial).leads s
  | mutate line name m args => exact (Run.traces_mutate (D := fun _ => True) trivial).leads s
  | enter => exact .refl
  | leave => exact .refl
  | other f still =>
    simp only [after, h s]
    exact .refl

end Activity

/-! ## The life of a state -/

/-- What happens to a state: a match is asked for, or something else is done. -/
inductive Event where
  | ask (line : Nat) (subject source : Value)
  | act (a : Activity) (spares : a.SparesPatterns)

namespace Event

def after (s : State) : Event → State
  | .ask line subject source => (Session.matching line subject source s).2
  | .act a _ => a.after s

/-- The state after several events. -/
def afterAll (s : State) (es : List Event) : State := es.foldl after s

/-- The answers to the matches, in order. -/
def answers (s : State) : List Event → List (Except Failure Value)
  | [] => []
  | .ask line subject source :: es =>
    (Session.matching line subject source s).1 :: answers (Session.matching line subject source s).2 es
  | .act a _ :: es => answers (a.after s) es

/-- The answer when the pattern is compiled anew. -/
def anew? (engine : Pattern.Engine) : Event → Option (Except Failure Value)
  | .ask line subject source =>
    some ((Operation.matchingAnew engine subject source).mapError fun c => .failed ⟨line, c⟩)
  | .act _ _ => none

variable {engine : Pattern.Engine}

theorem leads_after (s : State) (e : Event) : s.patterns.Leads (e.after s).patterns := by
  cases e with
  | ask line subject source => exact Session.leads_matching
  | act a spares => exact Activity.leads_after s spares

theorem kept_afterAll {s : State} (h : s.patterns.Kept engine) (es : List Event) :
    (afterAll s es).patterns.Kept engine := by
  induction es generalizing s with
  | nil => exact h
  | cons e es ih => exact ih ((leads_after s e).kept h)

theorem answers_eq_anew {s : State} (h : s.patterns.Kept engine) (es : List Event) :
    answers s es = es.filterMap (anew? engine) := by
  induction es generalizing s with
  | nil => rfl
  | cons e es ih =>
    have hnext := ih ((leads_after s e).kept h)
    cases e with
    | ask line subject source =>
      rw [answers, Session.answer_matching h]
      exact congrArg _ hnext
    | act a spares => exact hnext

/-- Whatever happens to a state, all matches are answered as if their patterns were compiled anew, with
the same messages. At any time the cache holds few patterns, no two for one text, each of them that of its
text, and none for a text that is no pattern. -/
theorem cache_invisible (engine : Pattern.Engine) (random : Random) (input : List UInt8) (disk : Disk)
    (es : List Event) :
    answers (State.fresh engine random input disk) es = es.filterMap (anew? engine) ∧
    (afterAll (State.fresh engine random input disk) es).patterns.Kept engine ∧
    ∀ text message, engine.whole text = .error message →
      ∀ test, (text, test) ∉ (afterAll (State.fresh engine random input disk) es).patterns.entries := by
  have hstart := Pattern.Cache.kept_empty engine
  have hkept := kept_afterAll (s := State.fresh engine random input disk) hstart es
  refine ⟨answers_eq_anew hstart es, hkept, fun text message herror test hmem => ?_⟩
  have hown := hkept.own text test hmem
  rw [herror] at hown
  cases hown

/-- A text that is no pattern is tried by a host, and by a script in between. -/
theorem cache_invisible_bad_pattern :
    let failing : Expr := .binary 1 .match (.constant 1 (.literal "ab")) (.constant 1 (.literal "("))
    let es : List Event :=
      [.ask 1 (.literal "ab") (.literal "a."), .act (.evaluate [] failing) trivial, .ask 2 (.literal "ab") (.literal "(")]
    let message := "not a regular expression"
    answers Activity.start es = [.ok (.boolean true), .error (.failed ⟨2, .badPattern message⟩)] ∧
      Pattern.Engine.bundled.whole "(" = .error message ∧
      ∀ test, ("(", test) ∉ (afterAll Activity.start es).patterns.entries := by
  intro failing es message
  obtain ⟨hanswers, -, hnone⟩ := cache_invisible .bundled ⟨[], 0, []⟩ [] ⟨[], []⟩ es
  have hbad : Pattern.Engine.bundled.whole "(" = .error message :=
    Pattern.Engine.compile_bundled_of_none (by decide +kernel)
  obtain ⟨test, hgood, htest⟩ := Pattern.Engine.compile_bundled_of_isMatch
    (show (Pattern.ofSource (Pattern.anchored "a.")).toOption.any (·.isMatch "ab".toList) = true by decide +kernel)
  have hfirst : Operation.matchingAnew .bundled (.literal "ab") (.literal "a.") = .ok (.boolean true) := by
    change Operation.outcome "ab" (Pattern.Engine.bundled.whole "a.") = _
    rw [Pattern.Engine.whole, hgood, Operation.outcome, htest]
  have hsecond : Operation.matchingAnew .bundled (.literal "ab") (.literal "(") = .error (.badPattern message) := by
    change Operation.outcome "ab" (Pattern.Engine.bundled.whole "(") = _
    rw [hbad, Operation.outcome]
  refine ⟨hanswers.trans ?_, hbad, hnone "(" message hbad⟩
  simp only [es, anew?, List.filterMap_cons, List.filterMap_nil, hfirst, hsecond]
  rfl

end Event
end Crunch
