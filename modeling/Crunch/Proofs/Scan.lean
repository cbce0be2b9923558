import Crunch.Token.Scan

/-!
# Crunch.Proofs.Scan

How scanning moves through a text.

* `Scan.Passes`: from one place of a text to a later one, with the tokens that come up on the way.
* `Scan.tokensFrom_of_passes`: the tokens of a text are those on the way to a place, and then those from
  there on.
-/

namespace Crunch
namespace Scan

/-- From a line and the text that is left there, the tokens on the way to a later line and the text that is left
there. -/
inductive Passes : Nat → List Char → List Placed → Nat → List Char → Prop where
  | refl {line : Nat} {cs : List Char} : Passes line cs [] line cs
  | token {line line' n : Nat} {c : Char} {rest cs : List Char} {t : Token} {ts : List Placed} :
      scan c rest = (.token t, n) → Passes (line + lineEnds (c :: rest.take n)) (rest.drop n) ts line' cs →
      Passes line (c :: rest) ((t, line) :: ts) line' cs
  | gap {line line' n : Nat} {c : Char} {rest cs : List Char} {ts : List Placed} :
      scan c rest = (.gap, n) → Passes (line + lineEnds (c :: rest.take n)) (rest.drop n) ts line' cs →
      Passes line (c :: rest) ts line' cs

variable {line line' line'' : Nat} {cs cs' cs'' : List Char} {ts ts' : List Placed} {t : Token}

namespace Passes

theorem trans (h : Passes line cs ts line' cs') (h' : Passes line' cs' ts' line'' cs'') :
    Passes line cs (ts ++ ts') line'' cs'' := by
  induction h with
  | refl => exact h'
  | token hs _ ih => exact .token hs (ih h')
  | gap hs _ ih => exact .gap hs (ih h')

/-- One token, whose characters are `c` and `word`. -/
theorem one {c : Char} {word rest : List Char} (h : scan c (word ++ rest) = (.token t, word.length)) :
    Passes line (c :: (word ++ rest)) [(t, line)] (line + lineEnds (c :: word)) rest := by
  refine .token h ?_
  rw [List.take_left, List.drop_left]
  exact .refl

/-- One gap. -/
theorem skip {c : Char} {gap rest : List Char} (h : scan c (gap ++ rest) = (.gap, gap.length)) :
    Passes line (c :: (gap ++ rest)) [] (line + lineEnds (c :: gap)) rest := by
  refine .gap h ?_
  rw [List.take_left, List.drop_left]
  exact .refl

end Passes

theorem tokensFrom_of_passes (h : Passes line cs ts line' cs') :
    tokensFrom line cs = (tokensFrom line' cs').map (ts ++ ·) := by
  induction h with
  | refl => cases tokensFrom _ _ <;> rfl
  | @token line line' n c rest cs t ts hs _ ih =>
    rw [tokensFrom.eq_def]
    simp only [hs, ih]
    cases tokensFrom line' cs <;> rfl
  | gap hs _ ih =>
    rw [tokensFrom.eq_def]
    simp only [hs, ih]

theorem tokensFrom_nil (line : Nat) : tokensFrom line [] = .ok [] := by rw [tokensFrom.eq_def]

end Scan
end Crunch
