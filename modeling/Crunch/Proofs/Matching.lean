import Crunch.Pattern

/-!
# Crunch.Proofs.Matching

What a pattern matches, and that the sets of end positions are computed by it.

* `Pattern.Matches`: a pattern matches the part of a text between two positions.
* `Pattern.testBit_ends`: the positions that `ends` finds are those where a match ends that starts
  at one of the given positions.
* `Pattern.isMatch_iff`: a text has a match exactly if some part of it is matched.
-/

namespace Crunch
namespace Pattern

/-- The character before a position. -/
def before (text : List Char) (i : Nat) : Option Char := if i = 0 then none else text[i - 1]?

/-- `n` steps of a relation in a row. -/
inductive Times (R : Nat → Nat → Prop) : Nat → Nat → Nat → Prop where
  | zero {i} : Times R 0 i i
  | succ {n i j k} (step : R i j) (rest : Times R n j k) : Times R (n + 1) i k

mutual

/-- A pattern matches a text from position `i` to position `j`. A greatest number of repetitions
below the least one stands for the least one. -/
def Matches (text : List Char) : Pattern → Nat → Nat → Prop
  | .empty, i, j => i = j
  | .char set, i, j => (∃ c, text[i]? = some c ∧ set.mem c) ∧ j = i + 1
  | .assert a letters, i, j =>
    i = j ∧ i ≤ text.length ∧ a.holds letters.mem (before text i) text[i]?
  | .group p, i, j => Matches text p i j
  | .seq ps, i, j => MatchesSeq text ps i j
  | .alt ps, i, j => MatchesAlt text ps i j
  | .repeated p least most, i, j =>
    ∃ n, least ≤ n ∧ (∀ m ∈ most, n ≤ max least m) ∧ Times (Matches text p) n i j

/-- Patterns match one after the other. -/
def MatchesSeq (text : List Char) : List Pattern → Nat → Nat → Prop
  | [], i, j => i = j
  | p :: ps, i, j => ∃ k, Matches text p i k ∧ MatchesSeq text ps k j

/-- One of the patterns matches. -/
def MatchesAlt (text : List Char) : List Pattern → Nat → Nat → Prop
  | [], _, _ => False
  | p :: ps, i, j => Matches text p i j ∨ MatchesAlt text ps i j

end

/-! ## Steps in a row -/

namespace Times

variable {R : Nat → Nat → Prop} {m n i j k : Nat}

theorem append (h : Times R m i j) (h' : Times R n j k) : Times R (m + n) i k := by
  induction h with
  | zero => rwa [Nat.zero_add]
  | succ step _ ih => rw [Nat.add_right_comm]; exact .succ step (ih h')

theorem split (h : Times R (m + n) i k) : ∃ j, Times R m i j ∧ Times R n j k := by
  induction m generalizing i with
  | zero => exact ⟨i, .zero, by rwa [Nat.zero_add] at h⟩
  | succ m ih =>
    rw [Nat.add_right_comm] at h
    cases h with
    | succ step rest =>
      obtain ⟨j, h₁, h₂⟩ := ih rest
      exact ⟨j, .succ step h₁, h₂⟩

theorem le (hR : ∀ i j, R i j → i ≤ j) (h : Times R n i j) : i ≤ j := by
  induction h with
  | zero => exact Nat.le_refl _
  | succ step _ ih => exact Nat.le_trans (hR _ _ step) ih

theorem le_length (hR : ∀ i j, R i j → i = j ∨ j ≤ m) (h : Times R n i j) : i = j ∨ j ≤ m := by
  induction h with
  | zero => exact .inl rfl
  | succ step _ ih =>
    obtain rfl | ih := ih
    · exact hR _ _ step
    · exact .inr ih

/-- Of more steps than positions to pass, one stands still and can be left out. -/
theorem drop_still (hR : ∀ i j, R i j → i ≤ j) (h : Times R (n + 1) i j) (hn : j ≤ i + n) :
    Times R n i j := by
  induction n generalizing i with
  | zero =>
    have hi : i = j := Nat.le_antisymm (h.le hR) hn
    subst hi
    exact .zero
  | succ n ih =>
    cases h with
    | @succ _ _ k _ step rest =>
      by_cases hk : i = k
      · subst hk
        exact rest
      · have hik := hR _ _ step
        exact .succ step (ih rest (by omega))

/-- A step that stands still can be made again. -/
theorem again_still (hR : ∀ i j, R i j → i ≤ j) (h : Times R n i j) (hn : j < i + n) :
    Times R (n + 1) i j := by
  induction n generalizing i with
  | zero => have := h.le hR; omega
  | succ n ih =>
    cases h with
    | @succ _ _ k _ step rest =>
      by_cases hk : i = k
      · subst hk
        exact .succ step (.succ step rest)
      · have hik := hR _ _ step
        exact .succ step (ih rest (by omega))

theorem lower (hR : ∀ i j, R i j → i ≤ j) (h : Times R (n + m) i j) (hn : j ≤ i + n) :
    Times R n i j := by
  induction m with
  | zero => exact h
  | succ m ih =>
    have fewer : Times R (n + m) i j := h.drop_still hR (Nat.le_trans hn (by omega))
    exact ih fewer

theorem raise (hR : ∀ i j, R i j → i ≤ j) (h : Times R n i j) (hn : j < i + n) (m : Nat) :
    Times R (n + m) i j := by
  induction m with
  | zero => exact h
  | succ m ih =>
    have more : Times R (n + m + 1) i j := ih.again_still hR (Nat.lt_of_lt_of_le hn (by omega))
    exact more

/-- Steps that may stand still are up to so many steps. -/
theorem reflexive_iff :
    Times (fun i j => i = j ∨ R i j) n i j ↔ ∃ m ≤ n, Times R m i j := by
  constructor
  · intro h
    induction h with
    | zero => exact ⟨0, Nat.le_refl _, .zero⟩
    | succ step _ ih =>
      obtain ⟨m, hm, h⟩ := ih
      obtain rfl | step := step
      · exact ⟨m, by omega, h⟩
      · exact ⟨m + 1, by omega, .succ step h⟩
  · rintro ⟨m, hm, h⟩
    induction h generalizing n with
    | @zero i =>
      clear hm
      induction n with
      | zero => exact .zero
      | succ n ih => exact .succ (.inl rfl) ih
    | @succ m _ _ _ step _ ih =>
      obtain ⟨n, rfl⟩ : ∃ k, n = k + 1 := ⟨n - 1, by omega⟩
      exact .succ (.inr step) (ih (by omega))

end Times

/-! ## Matches do not go back or beyond the text -/

mutual

theorem Matches.within {text : List Char} :
    ∀ {p : Pattern} {i j : Nat}, Matches text p i j → i ≤ j ∧ (i = j ∨ j ≤ text.length)
  | .empty, i, j, h => by
    rw [Matches] at h
    exact ⟨Nat.le_of_eq h, .inl h⟩
  | .char _, i, j, h => by
    rw [Matches] at h
    obtain ⟨⟨c, hc, _⟩, rfl⟩ := h
    have hlt := (List.getElem?_eq_some_iff.1 hc).1
    exact ⟨Nat.le_succ i, .inr hlt⟩
  | .assert _ _, i, j, h => by
    rw [Matches] at h
    exact ⟨Nat.le_of_eq h.1, .inl h.1⟩
  | .group p, i, j, h => by rw [Matches] at h; exact h.within
  | .seq ps, i, j, h => by rw [Matches] at h; exact h.within
  | .alt ps, i, j, h => by rw [Matches] at h; exact h.within
  | .repeated p _ _, i, j, h => by
    rw [Matches] at h
    obtain ⟨n, _, _, h⟩ := h
    exact ⟨h.le fun _ _ h => h.within.1, h.le_length fun _ _ h => h.within.2⟩

theorem MatchesSeq.within {text : List Char} :
    ∀ {ps : List Pattern} {i j : Nat}, MatchesSeq text ps i j → i ≤ j ∧ (i = j ∨ j ≤ text.length)
  | [], i, j, h => by
    rw [MatchesSeq] at h
    exact ⟨Nat.le_of_eq h, .inl h⟩
  | p :: ps, i, j, h => by
    rw [MatchesSeq] at h
    obtain ⟨k, h, hs⟩ := h
    refine ⟨Nat.le_trans h.within.1 hs.within.1, ?_⟩
    obtain rfl | hs := hs.within.2
    · exact h.within.2
    · exact .inr hs

theorem MatchesAlt.within {text : List Char} :
    ∀ {ps : List Pattern} {i j : Nat}, MatchesAlt text ps i j → i ≤ j ∧ (i = j ∨ j ≤ text.length)
  | [], i, j, h => by rw [MatchesAlt] at h; exact h.elim
  | p :: ps, i, j, h => by
    rw [MatchesAlt] at h
    obtain h | h := h
    · exact h.within
    · exact h.within

end

/-! ## Sets of positions -/

theorem testBit_selectFrom (f : Option Char → Option Char → Bool) (i : Nat) (b : Option Char)
    (cs : List Char) (k : Nat) :
    (selectFrom f i b cs).testBit k = true ↔
      ∃ d ≤ cs.length, k = i + d ∧ f (if d = 0 then b else cs[d - 1]?) cs[d]? = true := by
  induction cs generalizing i b with
  | nil =>
    rw [selectFrom]
    by_cases hf : f b none = true
    · simp only [hf, if_true, Nat.one_shiftLeft, Nat.testBit_two_pow, decide_eq_true_eq]
      constructor
      · rintro rfl
        exact ⟨0, Nat.le_refl _, rfl, hf⟩
      · rintro ⟨d, hd, rfl, _⟩
        have : d = 0 := Nat.le_zero.1 hd
        omega
    · simp [hf]
  | cons c cs ih =>
    have first : (if f b (some c) = true then 1 <<< i else 0).testBit k = true ↔
        k = i ∧ f b (some c) = true := by
      by_cases hf : f b (some c) = true
      · simp only [hf, if_true, Nat.one_shiftLeft, Nat.testBit_two_pow, decide_eq_true_eq, and_true]
        exact eq_comm
      · simp [hf]
    rw [selectFrom, Nat.testBit_or, Bool.or_eq_true, first, ih]
    constructor
    · rintro (⟨rfl, hf⟩ | ⟨d, hd, rfl, hf⟩)
      · exact ⟨0, Nat.zero_le _, rfl, by simpa using hf⟩
      · refine ⟨d + 1, by simpa using hd, by omega, ?_⟩
        cases d with
        | zero => simpa using hf
        | succ d => simpa using hf
    · rintro ⟨d, hd, rfl, hf⟩
      cases d with
      | zero => exact .inl ⟨rfl, by simpa using hf⟩
      | succ d =>
        refine .inr ⟨d, by simpa using hd, by omega, ?_⟩
        cases d with
        | zero => simpa using hf
        | succ d => simpa using hf

theorem testBit_select (f : Option Char → Option Char → Bool) (text : List Char) (k : Nat) :
    (select f text).testBit k = true ↔ k ≤ text.length ∧ f (before text k) text[k]? = true := by
  rw [select, testBit_selectFrom]
  constructor
  · rintro ⟨d, hd, rfl, hf⟩
    rw [Nat.zero_add]
    exact ⟨hd, hf⟩
  · rintro ⟨hk, hf⟩
    exact ⟨k, hk, (Nat.zero_add k).symm, hf⟩

/-- The function takes a set of positions along a relation. -/
def Follows (R : Nat → Nat → Prop) (f : Nat → Nat) : Prop :=
  ∀ s j, (f s).testBit j = true ↔ ∃ i, s.testBit i = true ∧ R i j

theorem Follows.times_fixed {R : Nat → Nat → Prop} {f : Nat → Nat} (h : Follows R f) {s : Nat}
    (hs : f s = s) (n j : Nat) : s.testBit j = true ↔ ∃ i, s.testBit i = true ∧ Times R n i j := by
  induction n generalizing j with
  | zero =>
    constructor
    · intro hj
      exact ⟨j, hj, .zero⟩
    · rintro ⟨i, hi, ⟨⟩⟩
      exact hi
  | succ n ih =>
    constructor
    · intro hj
      obtain ⟨k, hk, hkj⟩ := (ih j).1 hj
      rw [← hs] at hk
      obtain ⟨i, hi, step⟩ := (h s k).1 hk
      exact ⟨i, hi, .succ step hkj⟩
    · rintro ⟨i, hi, step | ⟨step, rest⟩⟩
      have hk := (h s _).2 ⟨i, hi, step⟩
      rw [hs] at hk
      exact (ih j).2 ⟨_, hk, rest⟩

/-- Stopping at a fixed point loses nothing. -/
theorem Follows.iterate {R : Nat → Nat → Prop} {f : Nat → Nat} (h : Follows R f) (n : Nat) :
    Follows (Times R n) (iterate f n) := by
  intro s j
  induction n generalizing s with
  | zero =>
    rw [Pattern.iterate]
    constructor
    · intro hj
      exact ⟨j, hj, .zero⟩
    · rintro ⟨i, hi, ⟨⟩⟩
      exact hi
  | succ n ih =>
    rw [Pattern.iterate]
    by_cases hs : f s = s
    · rw [if_pos hs]
      exact h.times_fixed hs (n + 1) j
    · rw [if_neg hs, ih]
      constructor
      · rintro ⟨k, hk, rest⟩
        obtain ⟨i, hi, step⟩ := (h s k).1 hk
        exact ⟨i, hi, .succ step rest⟩
      · rintro ⟨i, hi, step | ⟨step, rest⟩⟩
        exact ⟨_, (h s _).2 ⟨i, hi, step⟩, rest⟩

theorem Follows.keep {R : Nat → Nat → Prop} {f : Nat → Nat} (h : Follows R f) :
    Follows (fun i j => i = j ∨ R i j) (fun t => t ||| f t) := by
  intro s j
  rw [Nat.testBit_or, Bool.or_eq_true, h s j]
  constructor
  · rintro (hj | ⟨i, hi, step⟩)
    · exact ⟨j, hj, .inl rfl⟩
    · exact ⟨i, hi, .inr step⟩
  · rintro ⟨i, hi, rfl | step⟩
    · exact .inl hi
    · exact .inr ⟨i, hi, step⟩

theorem Follows.comp {R R' : Nat → Nat → Prop} {f g : Nat → Nat} (hf : Follows R f)
    (hg : Follows R' g) : Follows (fun i j => ∃ k, R i k ∧ R' k j) (fun s => g (f s)) := by
  intro s j
  rw [hg (f s) j]
  constructor
  · rintro ⟨k, hk, hkj⟩
    obtain ⟨i, hi, hik⟩ := (hf s k).1 hk
    exact ⟨i, hi, k, hik, hkj⟩
  · rintro ⟨i, hi, k, hik, hkj⟩
    exact ⟨k, (hf s k).2 ⟨i, hi, hik⟩, hkj⟩

theorem Follows.congr {R R' : Nat → Nat → Prop} {f : Nat → Nat} (h : Follows R f)
    (hR : ∀ i j, R i j ↔ R' i j) : Follows R' f := by
  intro s j
  simp only [h s j, hR]

/-! ## Repetitions -/

/-- How often the rest of a repetition is tried, in a text of which no match passes more than
`bound` positions. -/
def further (bound least : Nat) : Option Nat → Nat
  | some m => min (m - least) bound
  | none => bound

/-- Counts above the bound are those at the bound: the steps that go on are fewer, and all others
stand still. -/
theorem repeated_iff {R : Nat → Nat → Prop} {bound : Nat} (least : Nat) (most : Option Nat)
    (hle : ∀ i j, R i j → i ≤ j) (hbound : ∀ n i j, Times R n i j → j < i + bound) (i j : Nat) :
    (∃ k, Times R (min least bound) i k ∧ ∃ m ≤ further bound least most, Times R m k j) ↔
      ∃ n, least ≤ n ∧ (∀ m ∈ most, n ≤ max least m) ∧ Times R n i j := by
  constructor
  · rintro ⟨k, hk, m, hm, hj⟩
    have h := hk.append hj
    have hmost : ∀ u ∈ most, least + m ≤ max least u := by
      rintro u rfl
      rw [further] at hm
      omega
    refine ⟨least + m, Nat.le_add_right _ _, hmost, ?_⟩
    by_cases hlb : least ≤ bound
    · rwa [Nat.min_eq_left hlb] at h
    · have hj := hbound _ _ _ h
      have := h.raise hle (by omega) (least - bound)
      rwa [show min least bound + m + (least - bound) = least + m by omega] at this
  · rintro ⟨n, hn, hmost, h⟩
    have hj := hbound _ _ _ h
    by_cases hlb : least ≤ bound
    · -- the steps beyond the least number, of which the bound keeps enough
      have hfew : Times R (min least bound + min (n - least) bound) i j := by
        have h' : Times R (min least bound + min (n - least) bound + (n - least - bound)) i j := by
          rwa [show min least bound + min (n - least) bound + (n - least - bound) = n by omega]
        by_cases hnb : n - least ≤ bound
        · rwa [Nat.sub_eq_zero_of_le hnb] at h'
        · exact h'.lower hle (by omega)
      obtain ⟨k, hk, hkj⟩ := hfew.split
      refine ⟨k, hk, _, ?_, hkj⟩
      cases most with
      | none => exact Nat.min_le_right _ _
      | some m => have := hmost m rfl; rw [further]; omega
    · obtain ⟨d, rfl⟩ := Nat.exists_eq_add_of_le (show bound ≤ n by omega)
      refine ⟨j, ?_, 0, Nat.zero_le _, .zero⟩
      rw [Nat.min_eq_right (by omega)]
      exact h.lower hle (by omega)

/-- The two loops of a repetition. -/
theorem Follows.repeated {R : Nat → Nat → Prop} {f : Nat → Nat} {bound : Nat} (h : Follows R f)
    (hle : ∀ i j, R i j → i ≤ j) (hbound : ∀ n i j, Times R n i j → j < i + bound) (least : Nat)
    (most : Option Nat) :
    Follows (fun i j => ∃ n, least ≤ n ∧ (∀ m ∈ most, n ≤ max least m) ∧ Times R n i j)
      (fun s => Pattern.iterate (fun t => t ||| f t) (further bound least most)
        (Pattern.iterate f (min least bound) s)) := by
  have first := h.iterate (min least bound)
  have second := h.keep.iterate (further bound least most)
  refine (first.comp second).congr fun i j => ?_
  rw [← repeated_iff least most hle hbound i j]
  simp only [Times.reflexive_iff]

/-! ## Ends of matches -/

mutual

theorem follows_ends (text : List Char) : ∀ p : Pattern, Follows (Matches text p) (ends text p)
  | .empty => by
    intro s j
    simp only [ends, Matches]
    exact ⟨fun hj => ⟨j, hj, rfl⟩, fun ⟨i, hi, hij⟩ => hij ▸ hi⟩
  | .char set => by
    intro s j
    simp only [ends, Matches, Nat.testBit_shiftLeft, Nat.testBit_and, Bool.and_eq_true,
      decide_eq_true_eq, testBit_select, Option.any_eq_true]
    constructor
    · rintro ⟨hj, hi, _, c, hc, hm⟩
      exact ⟨j - 1, hi, ⟨c, hc, hm⟩, by omega⟩
    · rintro ⟨i, hi, ⟨c, hc, hm⟩, rfl⟩
      have hlt := (List.getElem?_eq_some_iff.1 hc).1
      exact ⟨by omega, hi, by simp only [Nat.add_sub_cancel]; omega, c, hc, hm⟩
  | .assert a letters => by
    intro s j
    simp only [ends, Matches, Nat.testBit_and, Bool.and_eq_true, testBit_select]
    constructor
    · rintro ⟨hj, hl, hh⟩
      exact ⟨j, hj, rfl, hl, hh⟩
    · rintro ⟨i, hi, rfl, hl, hh⟩
      exact ⟨hi, hl, hh⟩
  | .group p => by
    intro s j
    simp only [ends, Matches]
    exact follows_ends text p s j
  | .seq ps => by
    intro s j
    simp only [ends, Matches]
    exact follows_endsSeq text ps s j
  | .alt ps => by
    intro s j
    simp only [ends, Matches]
    exact follows_endsAlt text ps s j
  | .repeated p least most => by
    have hbound : ∀ n i j, Times (Matches text p) n i j → j < i + (text.length + 2) := by
      intro n i j h
      have hle := h.le_length fun _ _ h => h.within.2
      omega
    have h := (follows_ends text p).repeated (fun _ _ h => h.within.1) hbound least most
    intro s j
    simp only [ends, Matches]
    exact h s j

theorem follows_endsSeq (text : List Char) :
    ∀ ps : List Pattern, Follows (MatchesSeq text ps) (endsSeq text ps)
  | [] => by
    intro s j
    simp only [endsSeq, MatchesSeq]
    exact ⟨fun hj => ⟨j, hj, rfl⟩, fun ⟨i, hi, hij⟩ => hij ▸ hi⟩
  | p :: ps => by
    intro s j
    simp only [endsSeq, MatchesSeq]
    exact (follows_ends text p).comp (follows_endsSeq text ps) s j

theorem follows_endsAlt (text : List Char) :
    ∀ ps : List Pattern, Follows (MatchesAlt text ps) (endsAlt text ps)
  | [] => by
    intro s j
    simp [endsAlt, MatchesAlt]
  | p :: ps => by
    intro s j
    simp only [endsAlt, MatchesAlt, Nat.testBit_or, Bool.or_eq_true, follows_ends text p s j,
      follows_endsAlt text ps s j]
    constructor
    · rintro (⟨i, hi, h⟩ | ⟨i, hi, h⟩)
      · exact ⟨i, hi, .inl h⟩
      · exact ⟨i, hi, .inr h⟩
    · rintro ⟨i, hi, h | h⟩
      · exact .inl ⟨i, hi, h⟩
      · exact .inr ⟨i, hi, h⟩

end

theorem testBit_ends (text : List Char) (p : Pattern) (s j : Nat) :
    (ends text p s).testBit j = true ↔ ∃ i, s.testBit i = true ∧ Matches text p i j :=
  follows_ends text p s j

theorem testBit_positions (text : List Char) (i : Nat) :
    (positions text).testBit i = true ↔ i ≤ text.length := by
  rw [positions, testBit_select]
  simp

theorem isMatch_iff (p : Pattern) (text : List Char) :
    isMatch p text = true ↔ ∃ i j, i ≤ text.length ∧ Matches text p i j := by
  have hne : isMatch p text = true ↔ ∃ j, (ends text p (positions text)).testBit j = true := by
    rw [isMatch, bne_iff_ne]
    constructor
    · exact Nat.exists_testBit_of_ne_zero
    · rintro ⟨j, hj⟩ h
      rw [h, Nat.zero_testBit] at hj
      exact Bool.false_ne_true hj
  rw [hne]
  simp only [testBit_ends, testBit_positions]
  exact exists_comm

end Pattern
end Crunch
