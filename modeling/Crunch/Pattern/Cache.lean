import Crunch.Pattern.Engine

/-!
# Crunch.Pattern.Cache

Patterns that match whole subjects, kept for further matches.

* `Pattern.Cache`: compiled patterns, with the engine that compiles further ones.
* `Cache.fetch`: the pattern of a text, from the cache or new. A full cache is emptied before a new
  pattern is tried, and a text that is no pattern is never kept.
-/

namespace Crunch
namespace Pattern

structure Cache where
  engine : Engine
  /-- Patterns by their texts, the latest first. -/
  entries : List (String × Test)

namespace Cache

/-- The cache before any match. -/
def empty (engine : Engine) : Cache := ⟨engine, []⟩

/-- Patterns that a cache holds at most. -/
def limit : Nat := 256

/-- The cache with room for a pattern. -/
def cleared (cache : Cache) : Cache := if limit ≤ cache.entries.length then empty cache.engine else cache

/-- The cache with one more pattern. -/
def insert (cache : Cache) (source : String) (test : Test) : Cache :=
  { cache with entries := (source, test) :: cache.entries }

/-- The pattern of a text, and the cache afterwards. -/
def fetch (cache : Cache) (source : String) : Except String Test × Cache :=
  match cache.entries.lookup source with
  | some test => (.ok test, cache)
  | none =>
    match cache.engine.whole source with
    | .ok test => (.ok test, cache.cleared.insert source test)
    | .error message => (.error message, cache.cleared)

end Cache
end Pattern
end Crunch
