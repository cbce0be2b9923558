import Crunch.Operation
import Crunch.Proofs.Scope

/-!
# Crunch.Proofs.Cache

What the cache of patterns holds, and what it changes, whatever engine compiles the patterns.

* `Pattern.Cache.Kept`: few entries, one for each text, and each with the pattern of its text.
* `Pattern.Cache.fetch_of_hit`, `Pattern.Cache.fetch_of_miss`: what a cache is asked for it has, or it
  makes room first.
* `Pattern.Cache.Leads`: the caches that a cache can become. They are kept if it is.
* `Operation.matching_eq_anew`: a match has the outcome that it has without a cache.
* `BinaryOp.leads_apply`: operators change the cache in no other way.
-/

namespace Crunch

namespace Pattern
namespace Cache

variable {engine : Engine} {cache : Cache} {source : String}

/-- What every cache of an engine keeps. -/
structure Kept (engine : Engine) (cache : Cache) : Prop where
  compiler : cache.engine = engine
  size : cache.entries.length ≤ limit
  /-- No text has two patterns. -/
  distinct : (cache.entries.map (·.1)).Nodup
  /-- A pattern is the one of its text, so a text that is no pattern has none. -/
  own : ∀ text test, (text, test) ∈ cache.entries → engine.whole text = .ok test

theorem fetch_of_hit {test : Test} (h : cache.entries.lookup source = some test) :
    cache.fetch source = (.ok test, cache) := by
  rw [fetch, h]

theorem fetch_of_miss (h : cache.entries.lookup source = none) :
    cache.fetch source = (cache.engine.whole source,
      match cache.engine.whole source with
      | .ok test => cache.cleared.insert source test
      | .error _ => cache.cleared) := by
  rw [fetch, h]
  cases cache.engine.whole source with
  | error message => rfl
  | ok test => rfl

/-- A cache that is kept gives what is compiled anew. -/
theorem Kept.fetch_eq (h : cache.Kept engine) (source : String) : (cache.fetch source).1 = engine.whole source := by
  cases hl : cache.entries.lookup source with
  | none => rw [fetch_of_miss hl, h.compiler]
  | some test => rw [fetch_of_hit hl, h.own source test (Scope.mem_of_lookup hl)]

theorem kept_empty (engine : Engine) : (empty engine).Kept engine := ⟨rfl, Nat.zero_le _, .nil, nofun⟩

/-- With room made, one more entry is within the limit. -/
theorem Kept.cleared (h : cache.Kept engine) :
    cache.cleared.Kept engine ∧ cache.cleared.entries.length < limit := by
  unfold Cache.cleared
  split
  · exact ⟨h.compiler ▸ kept_empty _, Nat.zero_lt_succ _⟩
  · rename_i hroom
    exact ⟨h, Nat.not_le.mp hroom⟩

theorem not_mem_cleared (h : cache.entries.lookup source = none) :
    source ∉ cache.cleared.entries.map (·.1) := by
  unfold Cache.cleared
  split
  · exact List.not_mem_nil
  · exact Scope.lookup_eq_none.mp h

/-- A full cache may be asked for a text that it holds, for one that it does not hold, and for one that
is no pattern. -/
theorem Kept.fetch (h : cache.Kept engine) (source : String) : (cache.fetch source).2.Kept engine := by
  cases hl : cache.entries.lookup source with
  | some test => rwa [fetch_of_hit hl]
  | none =>
    obtain ⟨hkept, hroom⟩ := h.cleared
    rw [fetch_of_miss hl, h.compiler]
    cases hw : engine.whole source with
    | error message => exact hkept
    | ok test =>
      refine ⟨hkept.compiler, hroom, List.nodup_cons.mpr ⟨not_mem_cleared hl, hkept.distinct⟩, fun text t ht => ?_⟩
      rcases List.mem_cons.mp ht with he | ht
      · cases he
        exact hw
      · exact hkept.own text t ht

/-- The caches that a cache can become when it is asked for patterns. -/
inductive Leads (cache : Cache) : Cache → Prop where
  | refl : Leads cache cache
  | fetch {kept : Cache} (h : Leads cache kept) (source : String) : Leads cache (kept.fetch source).2

namespace Leads

variable {cache' cache'' : Cache}

theorem trans (h : cache.Leads cache') (h' : cache'.Leads cache'') : cache.Leads cache'' := by
  induction h' with
  | refl => exact h
  | fetch _ source ih => exact .fetch ih source

theorem kept (h : cache.Leads cache') (hk : cache.Kept engine) : cache'.Kept engine := by
  induction h with
  | refl => exact hk
  | fetch _ source ih => exact ih.fetch source

end Leads

end Cache

end Pattern

/-! ## Matches -/

namespace Operation

open Pattern

variable {engine : Engine} {subject source : Value} {cache : Cache}

/-- The outcome of a match with a pattern, or with a text that was none. -/
def outcome (s : String) : Except String Test → Except Fault.Cause Value
  | .ok test => .ok (.boolean (test s))
  | .error message => .error (.badPattern message)

/-- The outcome of a match whose pattern is compiled anew. -/
def matchingAnew (engine : Engine) (subject source : Value) : Except Fault.Cause Value := do
  let s ← subject.literal?
  let p ← source.literal?
  outcome s (engine.whole p)

/-- A match of anything but texts leaves the cache alone. One of texts asks it for one pattern. -/
theorem matching_cases (engine : Engine) (subject source : Value) (cache : Cache) :
    (∃ c, matching subject source cache = (.error c, cache) ∧ matchingAnew engine subject source = .error c) ∨
    ∃ s p, matching subject source cache = (outcome s (cache.fetch p).1, (cache.fetch p).2) ∧
      matchingAnew engine subject source = outcome s (engine.whole p) := by
  unfold matching matchingAnew
  cases subject.literal? with
  | error c => exact .inl ⟨c, rfl, rfl⟩
  | ok s =>
    cases source.literal? with
    | error c => exact .inl ⟨c, rfl, rfl⟩
    | ok p =>
      refine .inr ⟨s, p, ?_, rfl⟩
      simp only
      split
      · rename_i hf
        rw [hf, outcome]
      · rename_i hf
        rw [hf, outcome]

theorem leads_matching : cache.Leads (matching subject source cache).2 := by
  rcases matching_cases cache.engine subject source cache with ⟨c, h, -⟩ | ⟨s, p, h, -⟩
  · rw [h]
    exact .refl
  · rw [h]
    exact .fetch .refl p

theorem matching_eq_anew (h : cache.Kept engine) :
    (matching subject source cache).1 = matchingAnew engine subject source := by
  rcases matching_cases engine subject source cache with ⟨c, hm, ha⟩ | ⟨s, p, hm, ha⟩
  · rw [hm, ha]
  · rw [hm, ha, h.fetch_eq p]

end Operation

theorem BinaryOp.leads_apply {op : BinaryOp} {l r : Value} {cache : Pattern.Cache} :
    cache.Leads (op.apply l r cache).2 := by
  unfold BinaryOp.apply
  cases op.result? l.type r.type with
  | none => exact .refl
  | some t =>
    simp only
    split
    · exact .refl
    split
    · exact .refl
    split
    · exact .refl
    split
    · exact Operation.leads_matching
    · exact .refl

end Crunch
