import Crunch.Proofs.Derivation
import Crunch.Proofs.Lines

/-!
# Crunch.Proofs.Rejections

The lines that rejections of scripts point to.

* `Parse.awaitsOperand`, `Parse.lastWord`: whether an operand has to follow a token, and the last token that is no
  line end.
* `Parse.Answers`: a parser does not run out of fuel, and what it rejects points to one of the lines, or to no line
  at all where the tokens end and an operand has to follow.
* `Parse.level_answers`, `Parse.statements_answers` and the like: this for all parsers.
* `Program.rejection_line_exactly`: the line of a rejection, for whole scripts.

The parsers know of the end of the tokens only that nothing is left. An operand is asked for right after a token of
`awaitsOperand`, and anything else is asked for after another token. This is what the induction carries along.
-/

namespace Crunch
namespace Parse

/-- Whether an operand has to follow a token behind which the tokens end. -/
def awaitsOperand : Token → Bool
  | .mark .lParen | .mark .lBracket | .mark .comma | .mark .dotDot | .mark .dotDotEq => true
  | .keyword .not | .keyword .if | .keyword .while | .keyword .in => true
  | t => (operator? t).isSome || (sign? t).isSome || (assignment? t).isSome

/-- The last token that is no line end, where `t` stands in front. -/
def lastWord (t : Token) (ts : List Placed) : Token := ts.foldl (fun t p => if p.1 = .newLine then t else p.1) t

section

variable (L : Nat → Prop) (w : Token)

/-- Where a rejection points, with `L` for the lines of the tokens and `w` for their last word. -/
def Points (r : Rejection) : Prop :=
  if r.cause = .unexpectedEnd ∧ awaitsOperand w = true then r.line = 0 else L r.line

/-- A result of which `Q` holds, or a rejection that points where it should. -/
def Answers {α : Type} (x : Outcome α) (Q : α → Prop) : Prop :=
  match x with
  | .ok a => Q a
  | .error (.error r) => Points L w r
  | .error .outOfFuel => False

/-- The tokens left after the word `t`. -/
structure Ahead (t : Token) (ts : List Placed) : Prop where
  lines : ∀ p ∈ ts, L p.2
  last : lastWord t ts = w

/-- The tokens left after a word that no operand has to follow, fewer than `n`. -/
def Past (n : Nat) (ts : List Placed) : Prop := ts.length < n ∧ ∃ t, awaitsOperand t = false ∧ Ahead L w t ts

end

variable {L : Nat → Prop} {w t t' : Token} {ts rest : List Placed} {l line n m fuel : Nat} {α β : Type}

/-! ## Answers -/

theorem Answers.bind {x : Outcome α} {f : α → Outcome β} {Q : α → Prop} {R : β → Prop} (h : Answers L w x Q)
    (hf : ∀ a, Q a → Answers L w (f a) R) : Answers L w (x >>= f) R := by
  cases x with
  | ok a => exact hf a h
  | error e =>
    cases e with
    | error r => exact h
    | outOfFuel => exact h

theorem Answers.mono {x : Outcome α} {Q R : α → Prop} (h : Answers L w x Q) (hQ : ∀ a, Q a → R a) :
    Answers L w x R := by
  cases x with
  | ok a => exact hQ a h
  | error e =>
    cases e with
    | error r => exact h
    | outOfFuel => exact h

theorem Answers.points {r : Rejection} {Q : α → Prop} (h : Answers L w (.error (.error r)) Q) : Points L w r := h

/-- Anything but an end of the tokens is rejected on one of the lines. -/
theorem answers_reject {cause : Rejection.Cause} {Q : α → Prop} (hline : L line) (hcause : cause ≠ .unexpectedEnd) :
    Answers L w (reject line cause) Q := by
  change Points L w ⟨line, cause⟩
  unfold Points
  rw [if_neg fun h => hcause h.1]
  exact hline

/-- At an end where no operand has to follow, one of the lines is given. -/
theorem answers_end {Q : α → Prop} (h : Past L w n []) (hline : L line) :
    Answers L w (reject line .unexpectedEnd : Outcome α) Q := by
  obtain ⟨-, t, ht, -, rfl⟩ := h
  change Points L t ⟨line, .unexpectedEnd⟩
  unfold Points
  rw [if_neg fun h => by rw [ht] at h; cases h.2]
  exact hline

/-- Where an operand has to follow, no line is. -/
theorem answers_operand {Q : α → Prop} (h : Ahead L w t []) (ht : awaitsOperand t = true) :
    Answers L w (reject 0 .unexpectedEnd : Outcome α) Q := by
  obtain ⟨-, rfl⟩ := h
  change Points L t ⟨0, .unexpectedEnd⟩
  unfold Points
  rw [if_pos ⟨rfl, ht⟩]

/-! ## What is left -/

theorem Ahead.head (h : Ahead L w t ((t', l) :: ts)) : L l := h.lines _ List.mem_cons_self

theorem Ahead.tail (h : Ahead L w t ((t', l) :: ts)) (ht : t' ≠ .newLine) : Ahead L w t' ts where
  lines p hp := h.lines p (List.mem_cons_of_mem _ hp)
  last := by
    have hlast := h.last
    unfold lastWord at hlast
    rw [List.foldl_cons, if_neg ht] at hlast
    exact hlast

theorem length_skipLines_le (ts : List Placed) : (skipLines ts).length ≤ ts.length :=
  (skipLines_takes ts).suffix.length_le

theorem length_skipSeparators_le (ts : List Placed) : (skipSeparators ts).length ≤ ts.length :=
  (skipSeparators_takes ts).suffix.length_le

theorem Ahead.newLine (h : Ahead L w t ((.newLine, l) :: ts)) : Ahead L w t ts where
  lines p hp := h.lines p (List.mem_cons_of_mem _ hp)
  last := h.last

theorem Ahead.skipLines (h : Ahead L w t ts) : Ahead L w t (skipLines ts) := by
  fun_induction Parse.skipLines ts with
  | case1 l ts ih => exact ih h.newLine
  | case2 => exact h

theorem Past.mono (h : Past L w n ts) (hn : n ≤ m) : Past L w m ts := ⟨h.1.trans_le hn, h.2⟩

theorem Past.skipLines (h : Past L w n ts) : Past L w n (skipLines ts) := by
  obtain ⟨hn, t, ht, hahead⟩ := h
  exact ⟨(length_skipLines_le ts).trans_lt hn, t, ht, hahead.skipLines⟩

theorem Past.head (h : Past L w n ((t, l) :: ts)) : L l := by
  obtain ⟨-, t, -, hahead⟩ := h
  exact hahead.head

theorem Past.tail (h : Past L w n ((t, l) :: ts)) (ht : t ≠ .newLine) : Ahead L w t ts := by
  obtain ⟨-, t, -, hahead⟩ := h
  exact hahead.tail ht

theorem Past.newLine (h : Past L w n ((.newLine, l) :: ts)) : Past L w n ts := by
  obtain ⟨hn, t, ht, hahead⟩ := h
  exact ⟨(Nat.lt_succ_self _).trans hn, t, ht, hahead.newLine⟩

theorem Ahead.past (h : Ahead L w t ts) (ht : awaitsOperand t = false) (hn : ts.length < n) : Past L w n ts :=
  ⟨hn, t, ht, h⟩

theorem Past.skipSeparators (h : Past L w n ts) : Past L w n (skipSeparators ts) := by
  fun_induction Parse.skipSeparators ts with
  | case1 l ts ih => exact ih h.newLine
  | case2 l ts ih => exact ih ((h.tail (by simp)).past rfl ((Nat.lt_succ_self _).trans h.1))
  | case3 => exact h

theorem Past.breaks {us : List Placed} (h : Past L w n (us ++ ts)) (hus : Grammar.Breaks us) : Past L w n ts := by
  induction us with
  | nil => exact h
  | cons p us ih =>
    obtain ⟨u, l⟩ := p
    obtain ⟨hu, hbreaks⟩ := List.forall_mem_cons.mp hus
    obtain rfl : u = .newLine := hu
    exact ih h.newLine hbreaks

theorem awaitsOperand_of_operator {op : BinaryOp} (h : operator? t = some op) : awaitsOperand t = true := by
  unfold awaitsOperand
  split <;> simp [h]

theorem awaitsOperand_of_sign {op : UnaryOp} (h : sign? t = some op) : awaitsOperand t = true := by
  unfold awaitsOperand
  split <;> simp [h]

theorem awaitsOperand_of_assignment {op : Option BinaryOp} (h : assignment? t = some op) : awaitsOperand t = true := by
  unfold awaitsOperand
  split <;> simp [h]

theorem ne_newLine_of_awaitsOperand (h : awaitsOperand t = true) : t ≠ .newLine := by
  rintro rfl
  cases h

theorem awaitsOperand_of_constant {c : Constant} (h : constant? t = some c) : awaitsOperand t = false := by
  unfold constant? at h
  split at h <;> first | rfl | cases h

/-! ## Single tokens -/

theorem expect_answers {token : Token} {place : String} (htoken : token ≠ .newLine) (h : Past L w n ts)
    (hline : L line) :
    Answers L w (expect token place line ts) fun r => L r.1 ∧ Ahead L w token r.2 ∧ r.2.length < ts.length := by
  unfold expect
  split
  · split
    · rename_i ht
      subst ht
      exact ⟨h.head, h.tail htoken, Nat.lt_succ_self _⟩
    · exact answers_reject h.head (by simp)
  · exact answers_end h hline

theorem name_answers (h : Past L w n ts) (hline : L line) :
    Answers L w (name line ts) fun r => Past L w ts.length r.2 := by
  unfold name
  split
  · exact (h.tail (by simp)).past rfl (Nat.lt_succ_self _)
  · exact answers_reject h.head (by simp)
  · exact answers_end h hline

theorem position_answers (h : Past L w n ts) (hline : L line) :
    Answers L w (position line ts) fun r => Past L w ts.length r.2 := by
  unfold position
  split
  · split
    · exact (h.tail (by simp)).past rfl (Nat.lt_succ_self _)
    · exact answers_reject h.head (by simp)
  · exact answers_reject h.head (by simp)
  · exact answers_end h hline

theorem method_answers (h : Past L w n ts) (hline : L line) :
    Answers L w (method line ts) fun r => Past L w ts.length r.2 := by
  refine (name_answers h hline).bind ?_
  rintro ⟨s, rest⟩ hrest
  dsimp only at hrest ⊢
  split
  · rename_i l' rest'
    have hn := hrest.1
    simp only [List.length_cons] at hn
    split
    · refine (position_answers ((hrest.tail (by simp)).past rfl (Nat.lt_succ_self _)) hline).bind ?_
      exact fun r hr => hr.mono (by omega)
    · exact hrest
  · exact hrest

/-! ## Expressions

What starts with an operand may be asked for where nothing is left, but then the word before asks for one. What goes
on behind an operand is only asked for behind a word that does not. A level calls at most fourteen parsers before the
first token is taken, which is where the bounds on the fuel come from. -/

mutual

theorem level_answers (fuel : Nat) {l : Nat} {ts : List Placed} {t : Token} (h : Ahead L w t ts)
    (ht : ts = [] → awaitsOperand t = true) (hl : l ≤ 11) (hfuel : 16 * ts.length + 14 ≤ fuel + l) :
    Answers L w (level fuel l ts) fun r => Past L w ts.length r.2 := by
  obtain ⟨fuel, rfl⟩ := Nat.exists_eq_add_one.mpr (show 0 < fuel by omega)
  unfold level
  split
  · split
    · rename_i line rest
      simp only [List.length_cons] at hfuel ⊢
      refine (level_answers fuel (h.tail (by simp)) (fun _ => rfl) hl (by omega)).bind ?_
      exact fun r hr => hr.mono (Nat.le_succ _)
    · exact level_answers fuel h ht (by simp only [UnaryOp.level] at *; omega) (by omega)
  · split
    · rename_i hlt
      simp only [UnaryOp.level] at hlt
      refine (level_answers fuel h ht (by omega) (by omega)).bind ?_
      rintro ⟨left, rest⟩ hrest
      have hshort : rest.length < ts.length := hrest.1
      exact chain_answers fuel hrest hlt (by omega)
    · split
      · rename_i u line rest
        simp only [List.length_cons] at hfuel ⊢
        split
        · rename_i op hop
          have hawaits := awaitsOperand_of_sign hop
          refine (level_answers fuel (h.tail (ne_newLine_of_awaitsOperand hawaits)) (fun _ => hawaits) hl
            (by omega)).bind ?_
          exact fun r hr => hr.mono (Nat.le_succ _)
        · exact power_answers fuel h ht (by simp only [List.length_cons]; omega)
      · exact power_answers fuel h ht (by simp only [List.length_nil] at *; omega)
termination_by fuel
decreasing_by all_goals omega

theorem chain_answers (fuel : Nat) {l n : Nat} {a : Expr} {ts : List Placed} (h : Past L w n ts) (hl : l < 11)
    (hfuel : 16 * ts.length < fuel) : Answers L w (chain fuel l a ts) fun r => Past L w n r.2 := by
  obtain ⟨fuel, rfl⟩ := Nat.exists_eq_add_one.mpr (show 0 < fuel by omega)
  unfold chain
  split
  · rename_i t line rest
    split
    · rename_i op hop
      split
      · have hawaits := awaitsOperand_of_operator hop
        -- Line ends behind the operator are skipped, so it stays the last word.
        have hlength := length_skipLines_le rest
        have hahead := (h.tail (ne_newLine_of_awaitsOperand hawaits)).skipLines
        have hn := h.1
        simp only [List.length_cons] at hfuel hn
        refine (level_answers fuel hahead (fun _ => hawaits) (by omega) (by omega)).bind ?_
        rintro ⟨right, rest'⟩ hrest
        have hshort : rest'.length < (skipLines rest).length := hrest.1
        exact chain_answers fuel (hrest.mono (by omega)) hl (by omega)
      · exact h
    · exact h
  · exact h
termination_by fuel
decreasing_by all_goals omega

theorem power_answers (fuel : Nat) {ts : List Placed} {t : Token} (h : Ahead L w t ts)
    (ht : ts = [] → awaitsOperand t = true) (hfuel : 16 * ts.length + 2 ≤ fuel) :
    Answers L w (power fuel ts) fun r => Past L w ts.length r.2 := by
  obtain ⟨fuel, rfl⟩ := Nat.exists_eq_add_one.mpr (show 0 < fuel by omega)
  unfold power
  refine (primary_answers fuel h ht (by omega)).bind ?_
  rintro ⟨e, rest⟩ hrest
  have hshort : rest.length < ts.length := hrest.1
  refine (postfixes_answers fuel hrest (show 16 * rest.length < fuel by omega)).bind ?_
  rintro ⟨base, rest'⟩ hrest'
  dsimp only
  split
  · rename_i line rest''
    have hlength := length_skipLines_le rest''
    have hn : rest''.length + 1 < ts.length := hrest'.1
    refine (level_answers fuel (hrest'.tail (by simp)).skipLines (fun _ => rfl) (Nat.le_refl 11) (by omega)).bind ?_
    exact fun r hr => hr.mono (by omega)
  · exact hrest'
termination_by fuel
decreasing_by all_goals omega

theorem primary_answers (fuel : Nat) {ts : List Placed} {t : Token} (h : Ahead L w t ts)
    (ht : ts = [] → awaitsOperand t = true) (hfuel : 16 * ts.length < fuel) :
    Answers L w (primary fuel ts) fun r => Past L w ts.length r.2 := by
  obtain ⟨fuel, rfl⟩ := Nat.exists_eq_add_one.mpr (show 0 < fuel by omega)
  unfold primary
  split
  · exact answers_operand h (ht rfl)
  · rename_i line rest
    have hlength := length_skipLines_le rest
    simp only [List.length_cons] at hfuel ⊢
    refine (level_answers fuel (h.tail (by simp)).skipLines (fun _ => rfl) (Nat.zero_le 11) (by omega)).bind ?_
    rintro ⟨e, rest'⟩ hrest
    have hinner := hrest.skipLines
    dsimp only at hinner ⊢
    split
    · rename_i line' rest'' hclose
      rw [hclose] at hinner
      have hn := hinner.1
      simp only [List.length_cons] at hn
      exact (hinner.tail (by simp)).past rfl (by omega)
    · exact answers_reject h.head (by simp)
  · rename_i line rest
    simp only [List.length_cons] at hfuel ⊢
    refine (list_answers fuel rfl (h.tail (by simp)) rfl h.head (by omega)).bind ?_
    exact fun r hr => hr.mono (Nat.le_succ _)
  · rename_i s line rest
    split
    · rename_i line' rest'
      simp only [List.length_cons] at hfuel ⊢
      refine (list_answers fuel rfl ((h.tail (by simp)).tail (by simp)) rfl h.head (by omega)).bind ?_
      exact fun r hr => hr.mono (by omega)
    · exact (h.tail (by simp)).past rfl (Nat.lt_succ_self _)
  · rename_i u line rest _ _ _
    split
    · rename_i c hc
      have hclosed := awaitsOperand_of_constant hc
      refine (h.tail ?_).past hclosed (Nat.lt_succ_self _)
      rintro rfl
      cases hc
    · exact answers_reject h.head (by simp)
termination_by fuel
decreasing_by all_goals omega

theorem postfixes_answers (fuel : Nat) {n : Nat} {a : Expr} {ts : List Placed} (h : Past L w n ts)
    (hfuel : 16 * ts.length < fuel) : Answers L w (postfixes fuel a ts) fun r => Past L w n r.2 := by
  obtain ⟨fuel, rfl⟩ := Nat.exists_eq_add_one.mpr (show 0 < fuel by omega)
  have hn := h.1
  unfold postfixes
  split
  · rename_i line rest
    simp only [List.length_cons] at hfuel hn
    refine (level_answers fuel (h.tail (by simp)) (fun _ => rfl) (Nat.zero_le 11) (by omega)).bind ?_
    rintro ⟨i, rest₁⟩ hi
    have hshort : rest₁.length < rest.length := hi.1
    refine (expect_answers (by simp) hi h.head).bind ?_
    rintro ⟨l, rest₂⟩ ⟨-, hrest, hshort'⟩
    dsimp only at hrest hshort'
    exact postfixes_answers fuel (hrest.past rfl (by omega)) (show 16 * rest₂.length < fuel by omega)
  · rename_i line rest
    simp only [List.length_cons] at hfuel hn
    refine (position_answers ((h.tail (by simp)).past rfl (Nat.lt_succ_self _)) h.head).bind ?_
    rintro ⟨p, rest₁⟩ hp
    have hshort : rest₁.length < rest.length := hp.1
    exact postfixes_answers fuel (hp.mono (by omega)) (show 16 * rest₁.length < fuel by omega)
  · rename_i line rest
    simp only [List.length_cons] at hfuel hn
    refine (method_answers ((h.tail (by simp)).past rfl (Nat.lt_succ_self _)) h.head).bind ?_
    rintro ⟨m, rest₁⟩ hm
    have hshort : rest₁.length < rest.length := hm.1
    refine (expect_answers (by simp) hm h.head).bind ?_
    rintro ⟨opening, rest₂⟩ ⟨hopening, hrest, hshort'⟩
    dsimp only at hrest hshort'
    refine (list_answers fuel rfl hrest rfl hopening (show 16 * rest₂.length + 16 ≤ fuel by omega)).bind ?_
    rintro ⟨es, rest₃⟩ hes
    have hshort'' : rest₃.length < rest₂.length := hes.1
    exact postfixes_answers fuel (hes.mono (show rest₂.length ≤ n by omega))
      (show 16 * rest₃.length < fuel by omega)
  · exact h
termination_by fuel
decreasing_by all_goals omega

theorem list_answers (fuel : Nat) {c : Mark} {line : Nat} {ts : List Placed} {t : Token}
    (hc : awaitsOperand (.mark c) = false) (h : Ahead L w t ts) (ht : awaitsOperand t = true) (hline : L line)
    (hfuel : 16 * ts.length + 16 ≤ fuel) : Answers L w (list fuel c line ts) fun r => Past L w ts.length r.2 := by
  obtain ⟨fuel, rfl⟩ := Nat.exists_eq_add_one.mpr (show 0 < fuel by omega)
  have hlength := length_skipLines_le ts
  have hskip := h.skipLines
  -- Without a closing bracket, and at the end of the tokens too, the elements are asked for.
  unfold list
  split
  · rename_i t' l rest heq
    rw [heq] at hlength hskip
    simp only [List.length_cons] at hlength
    split
    · rename_i hclose
      subst hclose
      exact (hskip.tail (by simp)).past hc hlength
    · refine (elements_answers fuel hc hskip ht hline (by simp only [List.length_cons]; omega)).mono ?_
      exact fun r hr => hr.mono hlength
  · rename_i heq
    rw [heq] at hlength hskip
    refine (elements_answers fuel hc hskip ht hline (by simp only [List.length_nil]; omega)).mono ?_
    exact fun r hr => hr.mono hlength
termination_by fuel
decreasing_by all_goals omega

theorem elements_answers (fuel : Nat) {c : Mark} {line : Nat} {ts : List Placed} {t : Token}
    (hc : awaitsOperand (.mark c) = false) (h : Ahead L w t ts) (ht : awaitsOperand t = true) (hline : L line)
    (hfuel : 16 * ts.length + 15 ≤ fuel) :
    Answers L w (elements fuel c line ts) fun r => Past L w ts.length r.2 := by
  obtain ⟨fuel, rfl⟩ := Nat.exists_eq_add_one.mpr (show 0 < fuel by omega)
  have hlength := length_skipLines_le ts
  unfold elements
  refine (level_answers fuel h.skipLines (fun _ => ht) (Nat.zero_le 11) (by omega)).bind ?_
  rintro ⟨e, rest⟩ he
  have hrest := he.skipLines
  dsimp only at hrest ⊢
  split
  · rename_i heq
    rw [heq] at hrest
    exact answers_end hrest hline
  · rename_i u l rest' heq
    rw [heq] at hrest
    have hshort := hrest.1
    simp only [List.length_cons] at hshort
    split
    · rename_i hclose
      subst hclose
      exact (hrest.tail (by simp)).past hc (by omega)
    · split
      · rename_i hcomma
        subst hcomma
        refine (elements_answers fuel hc (hrest.tail (by simp)) rfl hline (by omega)).bind ?_
        exact fun r hr => hr.mono (by omega)
      · exact answers_reject hrest.head (by simp)
termination_by fuel
decreasing_by all_goals omega

end

/-! ## Statements -/

theorem expr_answers {t : Token} (h : Ahead L w t ts) (ht : ts = [] → awaitsOperand t = true)
    (hfuel : 16 * ts.length + 14 ≤ fuel) : Answers L w (expr fuel ts) fun r => Past L w ts.length r.2 :=
  level_answers fuel h ht (Nat.zero_le 11) hfuel

theorem variableName_answers (h : Past L w n ts) (hline : L line) :
    Answers L w (variableName line ts) fun r => Past L w ts.length r.2 := by
  refine (name_answers h hline).bind ?_
  rintro ⟨s, rest⟩ hs
  dsimp only
  split
  · exact answers_reject hline (by simp)
  · exact hs

theorem endsStatement_answers {inBlock : Bool} (h : Past L w n ts) :
    Answers L w (endsStatement inBlock ts) fun _ => True := by
  unfold endsStatement
  split
  · trivial
  · trivial
  · trivial
  · split
    · trivial
    · exact answers_reject h.head (by simp)

theorem source_answers {t : Token} (h : Ahead L w t ts) (ht : awaitsOperand t = true)
    (hfuel : 16 * ts.length + 14 ≤ fuel) : Answers L w (source fuel ts) fun r => Past L w ts.length r.2 := by
  refine (expr_answers h (fun _ => ht) hfuel).bind ?_
  rintro ⟨start, rest⟩ hrest
  dsimp only
  split
  · rename_i l rest'
    have hn : rest'.length + 1 < ts.length := hrest.1
    refine (expr_answers (hrest.tail (by simp)) (fun _ => rfl) (by omega)).bind ?_
    exact fun r hr => hr.mono (by omega)
  · rename_i l rest'
    have hn : rest'.length + 1 < ts.length := hrest.1
    refine (expr_answers (hrest.tail (by simp)) (fun _ => rfl) (by omega)).bind ?_
    exact fun r hr => hr.mono (by omega)
  · exact hrest

/-- What is left after a statement, which has one of the lines. -/
def PastStatement (L : Nat → Prop) (w : Token) (n : Nat) (r : Read Statement) : Prop :=
  L r.1.line ∧ Past L w n r.2

theorem expression_answers {t : Token} (h : Ahead L w t ts) (hne : ts ≠ []) (hline : L line)
    (hfuel : 16 * ts.length + 14 ≤ fuel) :
    Answers L w (do let (e, rest) ← expr fuel ts; return (.expression line e, rest))
      (PastStatement L w ts.length) :=
  (expr_answers h (fun heq => absurd heq hne) hfuel).bind fun _ hr => ⟨hline, hr⟩

theorem simple_answers {t : Token} (h : Ahead L w t ts) (hne : ts ≠ []) (hline : L line)
    (hfuel : 16 * ts.length + 14 ≤ fuel) : Answers L w (simple fuel line ts) (PastStatement L w ts.length) := by
  unfold simple
  split
  · rename_i s l u opLine rest
    split
    · exact expression_answers h hne hline hfuel
    · rename_i op? hop
      have hawaits := awaitsOperand_of_assignment hop
      have hname := h.tail (by simp)
      have hrest := hname.tail (ne_newLine_of_awaitsOperand hawaits)
      simp only [List.length_cons] at hfuel ⊢
      split
      · exact answers_reject hname.head (by simp)
      · refine (expr_answers hrest (fun _ => hawaits) (by omega)).bind ?_
        rintro ⟨e, rest'⟩ hr
        have hr' := hr.mono (show rest.length ≤ rest.length + 1 + 1 by omega)
        cases op? with
        | none => exact ⟨hname.head, hr'⟩
        | some op => exact ⟨hname.head, hr'⟩
  · exact expression_answers h hne hline hfuel

mutual

theorem statement_answers (fuel : Nat) {line : Nat} {ts : List Placed} {t : Token} (h : Ahead L w t ts)
    (hne : ts ≠ []) (hline : L line) (hfuel : 16 * ts.length + 15 ≤ fuel) :
    Answers L w (statement fuel line ts) (PastStatement L w ts.length) := by
  obtain ⟨fuel, rfl⟩ := Nat.exists_eq_add_one.mpr (show 0 < fuel by omega)
  -- One case for each keyword that starts a statement, in the order of the parser, and the rest.
  unfold statement
  split
  · rename_i l rest
    simp only [List.length_cons] at hfuel ⊢
    refine (variableName_answers ((h.tail (by simp)).past rfl (Nat.lt_succ_self _)) hline).bind ?_
    rintro ⟨s, rest₁⟩ hs
    have hshort : rest₁.length < rest.length := hs.1
    refine (expect_answers (by simp) hs hline).bind ?_
    rintro ⟨l', rest₂⟩ ⟨-, hequals, hshort'⟩
    dsimp only at hequals hshort'
    refine (expr_answers hequals (fun _ => rfl) (by omega)).bind ?_
    exact fun r hr => ⟨hline, hr.mono (by omega)⟩
  · rename_i l rest
    simp only [List.length_cons] at hfuel ⊢
    refine (expr_answers (h.tail (by simp)) (fun _ => rfl) (by omega)).bind ?_
    rintro ⟨c, rest₁⟩ hc
    have hshort : rest₁.length < rest.length := hc.1
    refine (block_answers fuel hc hline (show 16 * rest₁.length < fuel by omega)).bind ?_
    rintro ⟨body, rest₂⟩ hbody
    have hshort' : rest₂.length < rest.length := hbody.1
    refine (branches_answers fuel hbody hline (show 16 * rest₂.length < fuel by omega)).bind ?_
    exact fun r hr => ⟨hline, hr.mono (Nat.le_succ _)⟩
  · rename_i l rest
    simp only [List.length_cons] at hfuel ⊢
    refine (expr_answers (h.tail (by simp)) (fun _ => rfl) (by omega)).bind ?_
    rintro ⟨c, rest₁⟩ hc
    have hshort : rest₁.length < rest.length := hc.1
    refine (block_answers fuel hc hline (show 16 * rest₁.length < fuel by omega)).bind ?_
    exact fun r hr => ⟨hline, hr.mono (Nat.le_succ _)⟩
  · rename_i l rest
    simp only [List.length_cons] at hfuel ⊢
    refine (variableName_answers ((h.tail (by simp)).past rfl (Nat.lt_succ_self _)) hline).bind ?_
    rintro ⟨s, rest₁⟩ hs
    have hshort : rest₁.length < rest.length := hs.1
    refine (expect_answers (by simp) hs hline).bind ?_
    rintro ⟨l', rest₂⟩ ⟨-, hin, hshort'⟩
    dsimp only at hin hshort'
    refine (source_answers hin rfl (by omega)).bind ?_
    rintro ⟨src, rest₃⟩ hsrc
    have hshort'' : rest₃.length < rest₂.length := hsrc.1
    refine (block_answers fuel hsrc hline (show 16 * rest₃.length < fuel by omega)).bind ?_
    exact fun r hr => ⟨hline, hr.mono (by omega)⟩
  · rename_i l rest
    simp only [List.length_cons] at hfuel ⊢
    refine (block_answers fuel ((h.tail (by simp)).past rfl (Nat.lt_succ_self _)) hline (by omega)).bind ?_
    rintro ⟨body, rest₁⟩ hbody
    have hshort : rest₁.length < rest.length + 1 := hbody.1
    refine (handlers_answers fuel hbody (show 16 * rest₁.length < fuel by omega)).bind ?_
    rintro ⟨hs, rest₂⟩ hhs
    dsimp only
    split
    · exact answers_reject hline (by simp)
    · exact ⟨hline, hhs⟩
  · rename_i l rest
    refine (name_answers ((h.tail (by simp)).past rfl (Nat.lt_succ_self _)) hline).bind ?_
    exact fun r hr => ⟨hline, hr.mono (Nat.le_succ _)⟩
  · rename_i l rest
    refine (name_answers ((h.tail (by simp)).past rfl (Nat.lt_succ_self _)) hline).bind ?_
    exact fun r hr => ⟨hline, hr.mono (Nat.le_succ _)⟩
  · exact simple_answers h hne hline (by omega)
termination_by fuel
decreasing_by all_goals omega

theorem branches_answers (fuel : Nat) {line n : Nat} {ts : List Placed} (h : Past L w n ts) (hline : L line)
    (hfuel : 16 * ts.length < fuel) : Answers L w (branches fuel line ts) fun r => Past L w n r.2 := by
  obtain ⟨fuel, rfl⟩ := Nat.exists_eq_add_one.mpr (show 0 < fuel by omega)
  have hn := h.1
  unfold branches
  split
  · exact h
  · rename_i l l' rest helse
    obtain ⟨breaks, rfl, hbreaks⟩ := continuation_takes helse
    have hif := ((h.breaks hbreaks).tail (by simp)).tail (by simp)
    simp only [List.length_append, List.length_cons] at hfuel hn
    refine (expr_answers hif (fun _ => rfl) (by omega)).bind ?_
    rintro ⟨c, rest₁⟩ hc
    have hshort : rest₁.length < rest.length := hc.1
    refine (block_answers fuel hc hline (show 16 * rest₁.length < fuel by omega)).bind ?_
    rintro ⟨body, rest₂⟩ hbody
    have hshort' : rest₂.length < rest.length := hbody.1
    refine (branches_answers fuel hbody hline (show 16 * rest₂.length < fuel by omega)).bind ?_
    exact fun r hr => hr.mono (by omega)
  · rename_i l rest _ helse
    obtain ⟨breaks, rfl, hbreaks⟩ := continuation_takes helse
    have helse' := (h.breaks hbreaks).tail (by simp)
    simp only [List.length_append, List.length_cons] at hfuel hn
    exact (block_answers fuel (helse'.past rfl (by omega)) hline (by omega)).bind fun r hr => hr
termination_by fuel
decreasing_by all_goals omega

theorem handlers_answers (fuel : Nat) {n : Nat} {ts : List Placed} (h : Past L w n ts)
    (hfuel : 16 * ts.length < fuel) : Answers L w (handlers fuel ts) fun r => Past L w n r.2 := by
  obtain ⟨fuel, rfl⟩ := Nat.exists_eq_add_one.mpr (show 0 < fuel by omega)
  have hn := h.1
  unfold handlers
  split
  · exact h
  · rename_i line rest hcatch
    obtain ⟨breaks, rfl, hbreaks⟩ := continuation_takes hcatch
    have hline := (h.breaks hbreaks).head
    have hcatch' := (h.breaks hbreaks).tail (by simp)
    simp only [List.length_append, List.length_cons] at hfuel hn
    refine (name_answers (hcatch'.past rfl (Nat.lt_succ_self _)) hline).bind ?_
    rintro ⟨s, rest₁⟩ hs
    have hshort : rest₁.length < rest.length := hs.1
    refine (block_answers fuel hs hline (show 16 * rest₁.length < fuel by omega)).bind ?_
    rintro ⟨body, rest₂⟩ hbody
    have hshort' : rest₂.length < rest.length := hbody.1
    refine (handlers_answers fuel hbody (show 16 * rest₂.length < fuel by omega)).bind ?_
    exact fun r hr => hr.mono (by omega)
termination_by fuel
decreasing_by all_goals omega

theorem block_answers (fuel : Nat) {line n : Nat} {ts : List Placed} (h : Past L w n ts) (hline : L line)
    (hfuel : 16 * ts.length < fuel) : Answers L w (block fuel line ts) fun r => Past L w n r.2 := by
  obtain ⟨fuel, rfl⟩ := Nat.exists_eq_add_one.mpr (show 0 < fuel by omega)
  have hn := h.1
  unfold block
  refine (expect_answers (by simp) h hline).bind ?_
  rintro ⟨l, rest⟩ ⟨hl, hdo, hshort⟩
  dsimp only at hl hdo hshort
  refine (expect_answers (by simp) (hdo.past rfl hshort) hl).bind ?_
  rintro ⟨l', rest'⟩ ⟨hl', hbrace, hshort'⟩
  dsimp only at hl' hbrace hshort'
  exact statements_answers fuel (hbrace.past rfl (by omega)) hl' (by omega)
termination_by fuel
decreasing_by all_goals omega

theorem statements_answers (fuel : Nat) {inBlock : Bool} {line n : Nat} {ts : List Placed} (h : Past L w n ts)
    (hline : L line) (hfuel : 16 * ts.length + 16 ≤ fuel) :
    Answers L w (statements fuel inBlock line ts) fun r => Past L w n r.2 := by
  obtain ⟨fuel, rfl⟩ := Nat.exists_eq_add_one.mpr (show 0 < fuel by omega)
  have hskip := h.skipSeparators
  have hlength := length_skipSeparators_le ts
  unfold statements
  split
  · rename_i heq
    rw [heq] at hskip
    split
    · exact answers_end hskip hline
    · exact hskip
  · rename_i t l rest heq
    rw [heq] at hskip hlength
    have hn := hskip.1
    simp only [List.length_cons] at hn
    split
    · rename_i hbrace
      obtain ⟨-, rfl⟩ := hbrace
      exact (hskip.tail (by simp)).past rfl (by omega)
    · obtain ⟨-, u, -, hahead⟩ := hskip
      refine (statement_answers fuel hahead (List.cons_ne_nil _ _) hahead.head (by omega)).bind ?_
      rintro ⟨s, rest₁⟩ ⟨hs, hrest⟩
      have hshort := hrest.1
      dsimp only at hs hrest hshort
      simp only [List.length_cons] at hlength hshort
      refine (endsStatement_answers hrest).bind ?_
      rintro ⟨⟩ -
      refine (statements_answers fuel hrest hs (by omega)).bind ?_
      exact fun r hr => hr.mono (by simp only [List.length_cons]; omega)
termination_by fuel
decreasing_by all_goals omega

end

/-- The lines of the tokens and the first line are enough for what is rejected. -/
theorem ofTokens_answers {ts : List Placed} (hts : ∀ p ∈ ts, L p.2) (h : L 1) :
    Answers L (lastWord .newLine ts) (Program.ofTokens ts) fun _ => True := by
  have hahead : Ahead L (lastWord .newLine ts) .newLine ts := ⟨hts, rfl⟩
  have hread : Answers L (lastWord .newLine ts) (statements (fuelFor ts) false 1 ts) _ :=
    statements_answers (fuelFor ts) (hahead.past rfl (Nat.lt_succ_self _)) h (Nat.add_le_add_left (by decide) _)
  unfold Program.ofTokens
  cases hs : statements (fuelFor ts) false 1 ts with
  | ok r => trivial
  | error e =>
    rw [hs] at hread
    cases e with
    | error r => exact hread
    | outOfFuel => exact hread

end Parse

open Parse Scan

/-- A script that is not read is rejected. The line is at most the last line of the script, and there is one exactly
if the tokens do not end where an operand has to follow. -/
theorem Program.rejection_line_exactly {source : String} {h : Halt Rejection}
    (hfail : Program.ofSource source = .error h) :
    ∃ r, h = .error r ∧ r.line ≤ 1 + lineEnds source.toList ∧
      (1 ≤ r.line ↔ ¬(r.cause = .unexpectedEnd ∧
        ∃ ts, tokenize source = .ok ts ∧ awaitsOperand (lastWord .newLine ts) = true)) := by
  unfold Program.ofSource at hfail
  cases hts : tokenize source with
  | error r =>
    rw [hts] at hfail
    cases hfail
    have hline := line_of_untokenized hts
    refine ⟨r, rfl, hline.2, fun _ => ?_, fun _ => hline.1⟩
    rintro ⟨-, ts, hts', -⟩
    cases hts'
  | ok ts =>
    rw [hts] at hfail
    change Program.ofTokens ts = .error h at hfail
    have hanswers := ofTokens_answers (L := fun line => 1 ≤ line ∧ line ≤ 1 + lineEnds source.toList)
      (line_of_token hts) ⟨le_rfl, Nat.le_add_right _ _⟩
    rw [hfail] at hanswers
    cases h with
    | outOfFuel => cases hanswers
    | error r =>
      have hpoints := hanswers.points
      unfold Points at hpoints
      refine ⟨r, rfl, ?_⟩
      split at hpoints
      · rename_i hend
        refine ⟨hpoints ▸ Nat.zero_le _, fun hpos => ?_, fun hnot => absurd ⟨hend.1, ts, rfl, hend.2⟩ hnot⟩
        rw [hpoints] at hpos
        cases hpos
      · rename_i hend
        refine ⟨hpoints.2, fun _ => ?_, fun _ => hpoints.1⟩
        rintro ⟨hcause, ts', hts', hawaits⟩
        cases hts'
        exact hend ⟨hcause, hawaits⟩

/-- A list that ends behind an element, on the second line. -/
theorem Program.rejection_line_exactly_list :
    ∃ r, Program.ofSource "f(1,\n2" = .error (.error r) ∧ r.cause = .unexpectedEnd ∧ 1 ≤ r.line ∧ r.line ≤ 2 := by
  have hfail : Program.ofSource "f(1,\n2" = .error (.error ⟨1, .unexpectedEnd⟩) := by cbv
  have htokens : tokenize "f(1,\n2" = .ok [(.identifier "f", 1), (.mark .lParen, 1), (.integer 1, 1),
    (.mark .comma, 1), (.newLine, 1), (.integer 2, 2)] := by cbv
  obtain ⟨r, hr, hlast, hline⟩ := Program.rejection_line_exactly hfail
  cases hr
  refine ⟨_, hfail, rfl, hline.mpr ?_, hlast⟩
  rintro ⟨-, ts, hts, hawaits⟩
  rw [htokens] at hts
  cases hts
  cases hawaits

/-- A script that ends after an operator is rejected on no line. -/
theorem Program.missing_operand_strays :
    Program.ofSource "1 +" = .error (.error ⟨0, .unexpectedEnd⟩) ∧ lineEnds "1 +".toList = 0 := by
  constructor <;> cbv

end Crunch
