/-!
# Crunch.Pattern.Engine

What scripts need of regular expressions.

* `Pattern.Engine`: something that compiles the texts of patterns. Scripts run on any engine, and
  nothing about them depends on which patterns it has.
* `Engine.whole`: the test whether a pattern matches a subject from its start to its end.
-/

namespace Crunch
namespace Pattern

/-- A compiled pattern: the test whether some part of a subject matches. -/
abbrev Test := String → Bool

structure Engine where
  /-- The test of a pattern, or a message that says why the text is no pattern. -/
  compile : String → Except String Test

/-- The text of a pattern between the start and the end of the subject. It is put in as it stands,
so parentheses in it may close the group around it. -/
def anchored (source : String) : String := "^(?:" ++ source ++ ")$"

namespace Engine

/-- The test of a pattern on whole subjects. -/
def whole (engine : Engine) (source : String) : Except String Test := engine.compile (anchored source)

/-- The text is a pattern. -/
def Accepts (engine : Engine) (source : String) : Prop := ∃ test, engine.compile source = .ok test

end Engine

end Pattern
end Crunch
