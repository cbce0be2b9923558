import Crunch.Pattern.Engine
import Crunch.Pattern.Parse

/-!
# Crunch.Pattern.Bundled

The engine that the command line runs scripts on.

* `Pattern.ofSource`: patterns within limits on their nesting and size.
* `Engine.bundled`: the engine that has these patterns.

It is one engine among others: what is known of scripts is known for every engine. Its sizes are
rough estimates of what compiled patterns take, its messages are its own, and of the properties of
characters it has the general categories and white space, but no scripts, blocks or derived ones.
-/

namespace Crunch
namespace Pattern

mutual

/-- Nesting of groups, sequences, alternatives and repetitions. -/
def depth : Pattern → Nat
  | .group p => depth p + 1
  | .seq ps => depthAll ps + 1
  | .alt ps => depthAll ps + 1
  | .repeated p _ _ => depth p + 1
  | _ => 0

/-- The greatest depth of some patterns. -/
def depthAll : List Pattern → Nat
  | [] => 0
  | p :: ps => max (depth p) (depthAll ps)

end

/-- Rough size in bytes of a machine for a set of characters. -/
def setSize : CharSet → Nat
  | .range _ high => if high.toNat < 128 then 32 else 96
  | .category _ _ => 16384
  | .blank => 512
  | .word => 49152
  | .union s t => setSize s + setSize t
  | .inter s t => setSize s + setSize t
  | .complement s => setSize s + 64
  | .folded s => 2 * setSize s
  | .foldedAscii s => setSize s

mutual

/-- Rough size in bytes of a machine for the pattern, where repetitions are written out. -/
def size : Pattern → Nat
  | .empty => 32
  | .char s => setSize s
  | .assert _ _ => 32
  | .group p => size p + 64
  | .seq ps => sizeAll ps
  | .alt ps => sizeAll ps + 64
  | .repeated p least most => (max 1 (most.getD least)) * size p + 32

/-- The size of some patterns together. -/
def sizeAll : List Pattern → Nat
  | [] => 0
  | p :: ps => size p + sizeAll ps

end

/-- Limits on nesting and size. -/
def maxDepth : Nat := 250
def maxSize : Nat := 10485760

/-- The pattern of a text, within the limits. -/
def ofSource (source : String) : Except String Pattern :=
  match ofText? source.toList with
  | none => .error "not a regular expression"
  | some p =>
    if p.depth ≤ maxDepth ∧ p.size ≤ maxSize then .ok p else .error "regular expression too large"

/-- The engine of the command line. -/
def Engine.bundled : Engine where
  compile source := (ofSource source).map fun p subject => p.isMatch subject.toList

namespace Engine

theorem compile_bundled_of_none {source : String} (h : ofText? source.toList = none) :
    bundled.compile source = .error "not a regular expression" := by
  change (ofSource source).map _ = _
  rw [ofSource, h]
  rfl

theorem compile_bundled_of_isMatch {source subject : String}
    (h : (ofSource source).toOption.any (·.isMatch subject.toList) = true) :
    ∃ test, bundled.compile source = .ok test ∧ test subject = true := by
  change ∃ test : Test, (ofSource source).map _ = .ok test ∧ test subject = true
  generalize ofSource source = w at h
  cases w with
  | error message => cases h
  | ok p => exact ⟨_, rfl, h⟩

theorem accepts_bundled {source : String} : bundled.Accepts source ↔ (ofSource source).isOk = true := by
  change (∃ test, (ofSource source).map _ = .ok test) ↔ _
  cases ofSource source with
  | error message => exact ⟨fun ⟨_, h⟩ => (nomatch h), fun h => (nomatch h)⟩
  | ok p => exact ⟨fun _ => rfl, fun _ => ⟨_, rfl⟩⟩

end Engine

end Pattern
end Crunch
