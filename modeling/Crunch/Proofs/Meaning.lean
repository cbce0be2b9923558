import Crunch.Pattern.Engine

/-!
# Crunch.Proofs.Meaning

What is taken as given of patterns and of the engines that compile them.

* `Pattern.Spans`: the parts of subjects that a pattern matches.
* `Pattern.Engine.Laws`: an engine has patterns by the usual rules for writing them. Each law is
  about one of the signs `^`, `$` and `(?:` `)`, or about the test of a compiled pattern.
* `Pattern.Engine.Laws.spans_anchored`: a pattern between the anchors matches whole subjects only, and
  those that it matches on its own.
-/

namespace Crunch
namespace Pattern

/-- The parts of a subject that are matched, by the positions where they start and end. A position is
the number of characters before it. -/
abbrev Spans := String → Nat → Nat → Prop

/-- One part and a part right behind it. -/
def Spans.andThen (R Q : Spans) : Spans := fun s i k => ∃ j, R s i j ∧ Q s j k

/-- A group without a name around a pattern. -/
def grouped (source : String) : String := "(?:" ++ source ++ ")"

theorem anchored_eq (source : String) : anchored source = "^" ++ (grouped source ++ "$") := by
  rw [anchored, grouped, show "^(?:" = "^" ++ "(?:" from rfl, show ")$" = ")" ++ "$" from rfl]
  simp only [String.append_assoc]

namespace Engine

/-- The meaning of a text is what it matches by the rules for patterns, and none where it breaks them.
Limits of an engine are no part of the rules: a text with a meaning may be more than it compiles. -/
structure Laws (engine : Engine) (meaning : String → Option Spans) : Prop where
  /-- A compiled text has a meaning, and its test finds out whether any part of a subject is matched. -/
  compiled {source : String} {test : Test} (h : engine.compile source = .ok test) :
    ∃ R, meaning source = some R ∧ ∀ s, test s = true ↔ ∃ i j, i ≤ s.length ∧ R s i j
  /-- A circumflex matches the empty part at the start of the subject. -/
  textStart {R : Spans} (h : meaning "^" = some R) (s : String) (i j : Nat) : R s i j ↔ i = 0 ∧ j = 0
  /-- A dollar sign matches the empty part at the end of the subject. -/
  textEnd {R : Spans} (h : meaning "$" = some R) (s : String) (i j : Nat) :
    R s i j ↔ i = s.length ∧ j = s.length
  /-- A group matches what the pattern in it matches, and a dollar sign behind it follows on that. -/
  group_textEnd {source : String} {P R : Spans} (h : meaning source = some P)
    (hg : meaning (grouped source ++ "$") = some R) :
    ∃ Q, meaning "$" = some Q ∧ ∀ s i j, R s i j ↔ P.andThen Q s i j
  /-- What stands behind a circumflex follows on it. -/
  textStart_group {source : String} {P R : Spans} (h : meaning source = some P)
    (hs : meaning ("^" ++ (grouped source ++ "$")) = some R) :
    ∃ Q T, meaning "^" = some Q ∧ meaning (grouped source ++ "$") = some T ∧
      ∀ s i j, R s i j ↔ Q.andThen T s i j

variable {engine : Engine} {meaning : String → Option Spans} {source : String}

theorem Laws.spans_anchored (laws : engine.Laws meaning) {P R : Spans} (h : meaning source = some P)
    (ha : meaning (anchored source) = some R) (s : String) (i j : Nat) :
    R s i j ↔ i = 0 ∧ j = s.length ∧ P s 0 s.length := by
  rw [anchored_eq] at ha
  obtain ⟨start, tied, hstart, htied, hR⟩ := laws.textStart_group h ha
  obtain ⟨finish, hfinish, hT⟩ := laws.group_textEnd h htied
  simp only [hR, Spans.andThen, hT, laws.textStart hstart, laws.textEnd hfinish]
  constructor
  · rintro ⟨_, ⟨rfl, rfl⟩, _, hP, rfl, rfl⟩
    exact ⟨rfl, rfl, hP⟩
  · rintro ⟨rfl, rfl, hP⟩
    exact ⟨0, ⟨rfl, rfl⟩, s.length, hP, rfl, rfl⟩

/-- What compiles has a meaning. -/
theorem Laws.meaning_of_accepts (laws : engine.Laws meaning) (h : engine.Accepts source) :
    ∃ R, meaning source = some R := by
  obtain ⟨test, h⟩ := h
  obtain ⟨R, hR, -⟩ := laws.compiled h
  exact ⟨R, hR⟩

/-- The test of a pattern between the anchors, where the pattern compiles on its own as well. -/
theorem Laws.whole_iff (laws : engine.Laws meaning) {P : Spans} {test : Test} (h : meaning source = some P)
    (hw : engine.whole source = .ok test) (s : String) : test s = true ↔ P s 0 s.length := by
  obtain ⟨R, hR, htest⟩ := laws.compiled hw
  simp only [htest, laws.spans_anchored h hR]
  constructor
  · rintro ⟨_, _, _, rfl, rfl, hP⟩
    exact hP
  · intro hP
    exact ⟨0, s.length, Nat.zero_le _, rfl, rfl, hP⟩

end Engine

end Pattern
end Crunch
