import Crunch.Proofs.Scan
import Mathlib

/-!
# Crunch.Proofs.Comment

Where a block comment ends.

* `Scan.commentWidth_append`: how a comment is read up to the first `*` with a `/` after it. The items of its
  body pair the stars of a run, so only the parity of the last run matters.
* `Scan.comment_ends_exactly`: the comment ends there exactly if the stars in front of those two characters
  are even in number. Otherwise it goes on, as one that opens right after them.
-/

namespace Crunch
namespace Scan

/-- Stars at the end of a text. -/
def starsAtEnd (cs : List Char) : Nat := (cs.reverse.takeWhile (· == '*')).length

theorem starsAtEnd_le (cs : List Char) : starsAtEnd cs ≤ cs.length := by
  have hle : (cs.reverse.takeWhile (· == '*')).length ≤ cs.reverse.length := (List.takeWhile_sublist _).length_le
  rwa [List.length_reverse] at hle

theorem starsAtEnd_cons (c : Char) (cs : List Char) :
    starsAtEnd (c :: cs) =
      if starsAtEnd cs = cs.length then cs.length + (if c = '*' then 1 else 0) else starsAtEnd cs := by
  unfold starsAtEnd
  rw [List.reverse_cons, List.takeWhile_append, List.length_reverse]
  split
  · by_cases hc : c = '*' <;> simp [hc]
  · rfl

/-- A character that is no star does not lengthen a run of stars after it. -/
theorem starsAtEnd_of_ne {c : Char} (h : c ≠ '*') (cs : List Char) : starsAtEnd (c :: cs) = starsAtEnd cs := by
  rw [starsAtEnd_cons, if_neg h]
  split
  · omega
  · rfl

/-- A star and the character after it do not change whether the stars at the end are even in number. -/
theorem starsAtEnd_pair (c : Char) (cs : List Char) : starsAtEnd ('*' :: c :: cs) % 2 = starsAtEnd cs % 2 := by
  have hle := starsAtEnd_le cs
  by_cases hc : c = '*'
  · rw [starsAtEnd_cons, starsAtEnd_cons, List.length_cons, if_pos hc, if_pos rfl]
    split <;> split <;> omega
  · rw [starsAtEnd_cons, starsAtEnd_of_ne hc, List.length_cons, if_neg (by omega)]

/-! ## The body of a comment -/

/-- Whether `*` and `/` stand side by side nowhere in a text. -/
def Unclosed (cs : List Char) : Prop := ¬ ['*', '/'] <:+: cs

instance (cs : List Char) : Decidable (Unclosed cs) := inferInstanceAs (Decidable (¬_))

theorem Unclosed.tail {c : Char} {cs : List Char} (h : Unclosed (c :: cs)) : Unclosed cs :=
  fun hin => h (List.infix_cons hin)

theorem Unclosed.ne_slash {c : Char} {cs : List Char} (h : Unclosed ('*' :: c :: cs)) : c ≠ '/' := by
  rintro rfl
  exact h ⟨[], cs, rfl⟩

theorem commentWidth_of_ne {c : Char} (h : c ≠ '*') (cs : List Char) :
    commentWidth (c :: cs) = ((commentWidth cs).1 + 1, (commentWidth cs).2) := by
  rw [commentWidth.eq_def]
  simp only [if_neg h, Nat.add_comm 1]

theorem commentWidth_pair {c : Char} (h : c ≠ '/') (cs : List Char) :
    commentWidth ('*' :: c :: cs) = ((commentWidth cs).1 + 2, (commentWidth cs).2) := by
  rw [commentWidth.eq_def]
  simp only [if_pos, if_neg h, Nat.add_comm 2]

/-- A body without `*/` is read to its end, where the comment is closed or goes on. -/
theorem commentWidth_append {body : List Char} (after : List Char) (h : Unclosed body) :
    commentWidth (body ++ '*' :: '/' :: after) =
      if starsAtEnd body % 2 = 0 then (body.length, true)
      else ((commentWidth after).1 + (body.length + 2), (commentWidth after).2) := by
  fun_induction commentWidth body with
  | case1 => rfl
  | case2 =>
    -- The star at the end and the one after it are an item, and then the slash is one.
    rw [List.singleton_append, commentWidth_pair (by decide), commentWidth_of_ne (by decide)]
    rfl
  | case3 rest => exact absurd rfl h.ne_slash
  | case4 c rest hc n closed _ ih =>
    rw [List.cons_append, List.cons_append, commentWidth_pair hc, ih h.tail.tail, starsAtEnd_pair]
    split
    · rfl
    · simp only [List.length_cons, Prod.mk.injEq, and_true]
      omega
  | case5 c rest hc n closed _ ih =>
    rw [List.cons_append, commentWidth_of_ne hc, ih h.tail, starsAtEnd_of_ne hc]
    split
    · rfl
    · simp only [List.length_cons, Prod.mk.injEq, and_true]
      omega

/-! ## Where the comment ends -/

variable {body : List Char}

theorem comment_of_even (after : List Char) (h : Unclosed body) (heven : starsAtEnd body % 2 = 0) :
    comment (body ++ '*' :: '/' :: after) = (.gap, body.length + 3) := by
  unfold comment
  rw [commentWidth_append after h, if_pos heven]
  rfl

theorem comment_of_odd (after : List Char) (h : Unclosed body) (hodd : starsAtEnd body % 2 ≠ 0) :
    comment (body ++ '*' :: '/' :: after) = ((comment after).1, (comment after).2 + (body.length + 2)) := by
  unfold comment
  rw [commentWidth_append after h, if_neg hodd]
  dsimp only
  split
  · simp only [Prod.mk.injEq, true_and]
    omega
  · simp only [Prod.mk.injEq, true_and]
    omega

/-- A comment takes its two closing characters and the star in front of it. -/
theorem two_lt_of_comment_gap {after : List Char} (h : (comment after).1 = .gap) : 2 < (comment after).2 := by
  unfold comment at h ⊢
  dsimp only at h ⊢
  split
  · exact Nat.le_add_left 3 _
  · rename_i hopen
    rw [if_neg hopen] at h
    cases h

/-- At the first `*/` after its opening, wherever it is met, a comment ends exactly if an even number of stars
stands in front. Otherwise it goes on, as one that opens right after. -/
theorem comment_ends_exactly {source : String} {ts : List Placed} {line : Nat} {after : List Char}
    (hmeet : Passes 1 source.toList ts line ('/' :: '*' :: (body ++ '*' :: '/' :: after))) (hfirst : Unclosed body) :
    (scan '/' ('*' :: (body ++ '*' :: '/' :: after)) = (.gap, body.length + 3) ↔ starsAtEnd body % 2 = 0) ∧
      (starsAtEnd body % 2 = 0 →
        Passes 1 source.toList ts (line + lineEnds body) after ∧
          tokenize source = (tokensFrom (line + lineEnds body) after).map (ts ++ ·)) ∧
      (starsAtEnd body % 2 ≠ 0 →
        scan '/' ('*' :: (body ++ '*' :: '/' :: after)) =
          ((comment after).1, (comment after).2 + (body.length + 2))) := by
  have hscan : scan '/' ('*' :: (body ++ '*' :: '/' :: after)) = comment (body ++ '*' :: '/' :: after) := rfl
  rw [hscan]
  refine ⟨⟨fun hgap => ?_, comment_of_even after hfirst⟩, fun heven => ?_, comment_of_odd after hfirst⟩
  · refine Decidable.byContradiction fun hodd => ?_
    rw [comment_of_odd after hfirst hodd, Prod.mk.injEq] at hgap
    have hlt := two_lt_of_comment_gap hgap.1
    omega
  · have hclosed : scan '/' (('*' :: body ++ ['*', '/']) ++ after) = (.gap, ('*' :: body ++ ['*', '/']).length) := by
      simpa [hscan] using comment_of_even after hfirst heven
    have hgap : Passes line _ [] _ after := .skip hclosed
    have hskip : Passes line ('/' :: '*' :: (body ++ '*' :: '/' :: after)) [] (line + lineEnds body) after := by
      simpa [lineEnds, List.count_cons] using hgap
    have hpasses := hmeet.trans hskip
    rw [List.append_nil] at hpasses
    exact ⟨hpasses, tokensFrom_of_passes hpasses⟩

/-- A comment over two lines, with runs of two and of three stars in its body and one of three at its end. -/
theorem comment_ends_exactly_lines :
    let body := "** a\n***b **".toList
    Passes 1 "x/*** a\n***b ***/y".toList [(.identifier "x", 1)] 1 ('/' :: '*' :: (body ++ '*' :: '/' :: ['y'])) ∧
      Unclosed body ∧ starsAtEnd body % 2 = 0 ∧
        tokenize "x/*** a\n***b ***/y" = .ok [(.identifier "x", 1), (.identifier "y", 2)] := by
  intro body
  have hmeet : Passes 1 "x/*** a\n***b ***/y".toList [(.identifier "x", 1)] 1
      ('/' :: '*' :: (body ++ '*' :: '/' :: ['y'])) := .token (n := 0) (by decide) .refl
  have hfirst : Unclosed body := by decide
  obtain ⟨-, hclosed, -⟩ := comment_ends_exactly hmeet hfirst
  have hline : 1 + lineEnds body = 2 := by decide
  have hrest : tokensFrom 2 ['y'] = .ok [(.identifier "y", 2)] := by cbv
  refine ⟨hmeet, hfirst, by decide, (hclosed (by decide)).2.trans ?_⟩
  rw [hline, hrest]
  rfl

/-- With one star in front of the two closing characters the comment is not closed. Nothing follows that closes it,
so the text is rejected; and where a later comment does, the name between the two is lost. -/
theorem odd_star_strays :
    Passes 1 "/***/x".toList [] 1 ('/' :: '*' :: (['*'] ++ '*' :: '/' :: ['x'])) ∧ Unclosed ['*'] ∧
      tokenize "/***/x" = .error ⟨1, .unexpected (.piece "/***/x")⟩ ∧
      tokenize "/***/x/* */y" = .ok [(.identifier "y", 1)] :=
  ⟨.refl, by decide, by cbv, by cbv⟩

end Scan
end Crunch
