import Crunch.Proofs.Cache
import Crunch.Proofs.Enclosing

/-!
# Crunch.Proofs.Anchoring

What the match of a whole subject makes of every text, on every engine that keeps to the rules for
patterns.

* `Pattern.Promised`: the outcome that a match is to have.
* `Pattern.Cache.Obtained`: the caches that operators leave.
* `Pattern.matches_whole_exactly`: a match has the promised outcome exactly if the text between the
  anchors is a pattern exactly when the text alone is one.
-/

namespace Crunch
namespace Pattern

/-- Caches that operators leave, starting from none. -/
inductive Cache.Obtained (engine : Engine) : Cache → Prop where
  | empty : Obtained engine (.empty engine)
  | apply {cache} (h : Obtained engine cache) (op : BinaryOp) (l r : Value) :
    Obtained engine (op.apply l r cache).2

theorem Cache.Obtained.kept {engine : Engine} {cache : Cache} (h : cache.Obtained engine) : cache.Kept engine := by
  induction h with
  | empty => exact kept_empty engine
  | apply _ op l r ih => exact BinaryOp.leads_apply.kept ih

/-- The outcome of a match as it should be: an error exactly for a text that is no pattern on its
own, and otherwise whether the pattern matches the subject from its start to its end. -/
def Promised (engine : Engine) (meaning : String → Option Spans) (subject source : String)
    (outcome : Except Fault.Cause Value) : Prop :=
  match engine.compile source with
  | .error _ => ∃ message, outcome = .error (.badPattern message)
  | .ok _ => ∃ b : Bool, outcome = .ok (.boolean b) ∧
      (b = true ↔ ∃ R, meaning source = some R ∧ R subject 0 subject.length)

variable {engine : Engine} {meaning : String → Option Spans} {cache : Cache} {s p : String}

/-- A match with a pattern gives what its test between the anchors gives, and the message of the engine
where there is none. -/
theorem matching_eq (h : cache.Kept engine) (s p : String) :
    (Operation.matching (.literal s) (.literal p) cache).1 = Operation.outcome s (engine.whole p) := by
  rw [Operation.matching_eq_anew h]
  rfl

/-- A match has the promised outcome exactly if the text between the anchors is a pattern exactly
when the text alone is one. -/
theorem matches_whole_exactly (laws : engine.Laws meaning) (h : cache.Obtained engine) (s p : String) :
    Promised engine meaning s p (Operation.matching (.literal s) (.literal p) cache).1 ↔
      (engine.Accepts (anchored p) ↔ engine.Accepts p) := by
  have hw : engine.whole p = engine.compile (anchored p) := rfl
  rw [matching_eq h.kept, Promised, hw, Engine.Accepts, Engine.Accepts]
  cases hp : engine.compile p with
  | error message =>
    cases ha : engine.compile (anchored p) with
    | error message => simp [Operation.outcome]
    | ok test => simp [Operation.outcome]
  | ok own =>
    cases ha : engine.compile (anchored p) with
    | error message => simp [Operation.outcome]
    | ok test =>
      obtain ⟨P, hP⟩ := laws.meaning_of_accepts ⟨own, hp⟩
      have htest := laws.whole_iff hP ha s
      simp [Operation.outcome, hP, htest]

/-- Alternatives of which the shorter one comes first, asked for when the cache has them. -/
theorem matches_whole_exactly_alternatives :
    let cache := (BinaryOp.match.apply (.literal "a") (.literal "a|ab") (.empty .bundled)).2
    Engine.bundled.Laws meaning? ∧ cache.Obtained .bundled ∧
    Promised .bundled meaning? "ab" "a|ab" (Operation.matching (.literal "ab") (.literal "a|ab") cache).1 := by
  have hown : (ofSource "a|ab").isOk := by decide +kernel
  have hanchored : (ofSource (anchored "a|ab")).isOk := by decide +kernel
  have hc : Cache.Obtained .bundled (BinaryOp.match.apply (.literal "a") (.literal "a|ab") (.empty .bundled)).2 :=
    .apply .empty .match _ _
  have hexact := matches_whole_exactly Engine.laws_bundled hc "ab" "a|ab"
  rw [Engine.accepts_bundled, Engine.accepts_bundled] at hexact
  exact ⟨Engine.laws_bundled, hc, hexact.2 ⟨fun _ => hown, fun _ => hanchored⟩⟩

/-- A parenthesis that the text does not open closes the group around it: no pattern on its own, the
text gives no error and matches a subject that no part of it covers. -/
theorem unopened_parenthesis_strays :
    Engine.bundled.Laws meaning? ∧ ¬Engine.bundled.Accepts "a)|(?:b" ∧
    (Operation.matching (.literal "axyz") (.literal "a)|(?:b") (.empty .bundled)).1 = .ok (.boolean true) ∧
    ¬Promised .bundled meaning? "axyz" "a)|(?:b"
      (Operation.matching (.literal "axyz") (.literal "a)|(?:b") (.empty .bundled)).1 := by
  have hown : ¬(ofSource "a)|(?:b").isOk := by decide +kernel
  obtain ⟨test, hwhole, htest⟩ := Engine.compile_bundled_of_isMatch
    (show (ofSource (anchored "a)|(?:b")).toOption.any (·.isMatch "axyz".toList) = true by decide +kernel)
  have hmatch : (Operation.matching (.literal "axyz") (.literal "a)|(?:b") (.empty .bundled)).1 =
      .ok (.boolean true) := by
    rw [matching_eq (Cache.kept_empty _), Engine.whole, hwhole, Operation.outcome, htest]
  rw [← Engine.accepts_bundled] at hown
  refine ⟨Engine.laws_bundled, hown, hmatch, ?_⟩
  rw [Promised, hmatch]
  split
  · rintro ⟨message, h⟩
    cases h
  · next test h => exact absurd ⟨test, h⟩ hown

end Pattern
end Crunch
