import Crunch.Pattern.Bundled
import Crunch.Proofs.Brackets
import Crunch.Proofs.Matching
import Crunch.Proofs.Meaning
import Crunch.Proofs.Openings

/-!
# Crunch.Proofs.Enclosing

The bundled engine has patterns by the usual rules.

* `Pattern.Parse.items_agrees`: the parser reads a text and its continuation alike.
* `Pattern.ofText_enclosed`: so a pattern is enclosed as it is, unless a comment swallows the end of the
  group.
* `Pattern.Engine.laws_bundled`: the laws that scripts rely on hold of the bundled engine.
-/

namespace Crunch
namespace Pattern
namespace Parse

variable {base cs cs' r r' : List Char} {f f' : Nat} {fl : Flags} {c : Char}
  {names : List (List Char)} {done : List Pattern} {current : List (Option Pattern)}

theorem items_succ (f : Nat) (fl : Flags) (names : List (List Char)) (done : List Pattern)
    (current : List (Option Pattern)) (cs : List Char) :
    items (f + 1) fl names done current cs =
      match repetition? fl.verbose (skip fl.verbose cs), current with
      | some none, _ => none
      | some (some (least, most, rest)), some p :: current =>
        items f fl names done (some (.repeated p least most) :: current) rest
      | some (some _), _ => none
      | none, _ =>
        match skip fl.verbose cs with
        | [] => some (alternatives done current, names, [])
        | c :: rest =>
          if c = ')' then some (alternatives done current, names, ')' :: rest)
          else if c = '|' then items f fl names (sequence current :: done) [] rest
          else if c = '(' then
            match opening fl (skip fl.verbose rest) with
            | none => none
            | some (.flags fl', rest) => items f fl' names done (none :: current) rest
            | some (.group fl' name?, rest) =>
              if name?.any names.contains then none
              else
                match items f fl' (name?.toList ++ names) [] [] rest with
                | some (p, names, ')' :: rest) =>
                  items f fl names done (some (.group p) :: current) rest
                | _ => none
          else if c = '[' then
            match bracket fl (rest.length + 1) rest with
            | some (s, rest) => items f fl names done (some (.char s) :: current) rest
            | none => none
          else
            match primitive fl (c :: rest) with
            | some (p, rest) => items f fl names done (some p :: current) rest
            | none => none := by
  rw [items.eq_def]
  simp only
  generalize skip fl.verbose cs = x
  rcases repetition? fl.verbose x with _ | _ | ⟨least, most, rest⟩
  · cases x with
    | nil => rfl
    | cons c x =>
      by_cases h₁ : c = ')'
      · subst h₁; rfl
      by_cases h₂ : c = '|'
      · subst h₂; rfl
      by_cases h₃ : c = '('
      · subst h₃; rfl
      by_cases h₄ : c = '['
      · subst h₄; rfl
      · rcases hp : primitive fl (c :: x) with _ | ⟨p, r⟩ <;> simp [h₁, h₂, h₃, h₄, hp]
  · rfl
  · rcases current with _ | ⟨_ | p, current⟩ <;> rfl

theorem items_nil : items (f + 1) fl names done current [] =
    some (alternatives done current, names, []) := by
  rw [items_succ, skip_nil]
  rfl

/-- The end of the closing alone is read to the end. -/
theorem items_dollar : items (f + 2) fl names done current ['$'] =
    some (alternatives done (some (.assert (dollar fl) (wordSet fl)) :: current), names, []) := by
  rw [items_succ, skip_dollar]
  exact items_nil

theorem items_late :
    Agrees (fun _ r => r = []) base none ((items f fl names done current ['$']).map paired) := by
  obtain _ | _ | f := f
  · exact .failed
  · rw [items_succ, skip_dollar]
    exact .failed
  · rw [items_dollar]
    exact .late rfl

/-- A brace before the closing has no bounds. -/
theorem items_brace (h : skip fl.verbose cs = closing) :
    items f fl names done current ('\x7b' :: cs) = none := by
  cases f with
  | zero => rfl
  | succ f =>
    have hr : repeatCount fl.verbose closing = (none, closing) := by
      have hd : closing.dropWhile Text.isBlank = closing := by decide +kernel
      have hc : countDigits fl.verbose (closing.length + 1) closing = ([], closing) := rfl
      simp only [repeatCount, hd, hc, skip_closing, true_or, if_true]
    have hb : bounds fl.verbose cs = none := by
      rw [bounds, h, hr]
    rw [items_succ, skip_cons (by decide +kernel) (by decide)]
    simp only [repetition?, hb]
    rfl

/-- A group in both texts, whose parenthesis is not the one of the closing. -/
theorem group_agrees {late : Pattern × List (List Char) → List Char → Prop}
    {o e : Option (Pattern × List (List Char) × List Char)}
    {g g' : Pattern → List (List Char) → List Char → Option (Pattern × List (List Char) × List Char)}
    (h : Agrees (fun _ r => r = []) base (o.map paired) (e.map paired))
    (hg : ∀ p names r r', Extends base r r' →
      Agrees late base ((g p names r).map paired) ((g' p names r').map paired))
    (hd : ∀ p names, Agrees late base none ((g' p names ['$']).map paired)) :
    Agrees late base
      ((match o with
        | some (p, names, ')' :: rest) => g p names rest
        | _ => none).map paired)
      ((match e with
        | some (p, names, ')' :: rest) => g' p names rest
        | _ => none).map paired) := by
  rcases o with _ | ⟨p, names, r⟩ <;> rcases e with _ | ⟨p', names', r'⟩
  · exact .failed
  · cases h with
    | late hl => subst hl; exact .failed
  · cases h
  · cases h with
    | read hr =>
      cases hr with
      | swallowed _ => exact .failed
      | apart hr =>
        cases r with
        | nil => exact hd p names
        | cons c r =>
          by_cases hc : c = ')'
          · subst hc
            exact hg p names r _ (.tail hr)
          · simpa [hc] using Agrees.failed

/-- Alternatives are the same in a text and in its continuation, unless the text has none and those
of the continuation take all of the closing in. -/
theorem items_agrees (h : Extends base cs cs') (hf : cs.length < f) (hf' : cs'.length < f') :
    Agrees (fun _ r => r = []) base ((items f fl names done current cs).map paired)
      ((items f' fl names done current cs').map paired) := by
  induction f generalizing base cs cs' f' fl names done current with
  | zero => omega
  | succ f ih =>
    obtain ⟨f', rfl⟩ : ∃ k, f' = k + 1 := ⟨f' - 1, by omega⟩
    have h := h.skip fl.verbose
    have hl := length_skip_le fl.verbose cs
    have hl' := length_skip_le fl.verbose cs'
    rw [items_succ, items_succ]
    generalize skip fl.verbose cs = x, skip fl.verbose cs' = x' at h hl hl'
    cases h with
    | swallowed hb => exact .read (.swallowed hb)
    | apart h =>
      cases x with
      | nil => exact .read (.apart h)
      | cons c x =>
        by_cases h₁ : c = ')'
        · subst h₁
          exact .read (.apart h)
        simp only [List.cons_append, List.length_cons] at hl hl'
        -- behind the first character the induction goes on, with what is left as the base
        have next : ∀ {r r' fl names done current}, Extends x r r' →
            Agrees (fun _ r => r = []) x ((items f fl names done current r).map paired)
              ((items f' fl names done current r').map paired) := by
          intro r r' fl names done current hr
          have hlr := hr.length_le
          have hla : (x ++ closing).length = x.length + 2 := by simp [closing]
          exact ih hr (by omega) (by omega)
        refine Agrees.weaken ?_ ((List.suffix_cons _ _).trans h)
        have hx := Extends.refl x
        rw [List.cons_append]
        obtain ⟨ho, he⟩ | ⟨ho, he⟩ | ⟨least, most, r, r', ho, he, hr⟩ :=
          repetition_extends (v := fl.verbose) (c := c) (List.suffix_refl x)
        · rw [ho, he]
          simp only [if_neg h₁]
          by_cases h₂ : c = '|'
          · simp only [if_pos h₂]
            exact next hx
          simp only [if_neg h₂]
          by_cases h₃ : c = '('
          · simp only [if_pos h₃]
            have ho := opening_agrees fl (hx.skip fl.verbose)
            generalize opening fl (skip fl.verbose x) = o,
              opening fl (skip fl.verbose (x ++ closing)) = e at ho
            cases ho with
            | failed => exact .failed
            | late hl =>
              obtain ⟨⟨fl', rfl⟩, rfl⟩ := hl
              exact items_late
            | @read a r r' hr =>
              cases a with
              | flags fl' => exact next hr
              | group fl' name? =>
                by_cases hn : name?.any names.contains = true
                · simp only [if_pos hn]
                  exact .failed
                · simp only [if_neg hn]
                  exact group_agrees (next hr) (fun _ _ _ _ hr => next hr) fun _ _ => items_late
          simp only [if_neg h₃]
          by_cases h₄ : c = '['
          · simp only [if_pos h₄]
            have hb := bracket_agrees fl hx
            generalize bracket fl (x.length + 1) x = o,
              bracket fl ((x ++ closing).length + 1) (x ++ closing) = e at hb
            cases hb with
            | failed => exact .failed
            | late hl => exact hl.elim
            | read hr => exact next hr
          simp only [if_neg h₄]
          have hp := primitive_agrees fl (c := c) (List.suffix_refl x)
          generalize primitive fl (c :: x) = o, primitive fl (c :: (x ++ closing)) = e at hp
          cases hp with
          | failed => exact .failed
          | read hr => exact next hr
          | late hl =>
            obtain rfl | ⟨y, rfl, hy⟩ := hl
            · exact items_late
            · simp only [items_brace hy]
              exact .failed
        · rw [ho, he]
          exact .failed
        · rw [ho, he]
          rcases current with _ | ⟨_ | p, current⟩
          · exact .failed
          · exact .failed
          · exact next hr

theorem skip_false (cs : List Char) : skip false cs = cs := by
  cases cs <;> rw [skip]
  rfl

/-- What is behind the opening of a group, up to the parenthesis that closes it. -/
theorem items_grouped (f : Nat) (current : List (Option Pattern)) (cs : List Char) :
    items (f + 1) {} [] [] current ('(' :: '?' :: ':' :: cs) =
      match items f {} [] [] [] cs with
      | some (p, names, ')' :: rest) => items f {} names [] (some (.group p) :: current) rest
      | _ => none := by
  rw [items_succ]
  simp only [skip_false]
  rfl

/-- A circumflex at the start. -/
theorem items_caret (f : Nat) (cs : List Char) :
    items (f + 1) {} [] [] [] ('^' :: cs) = items f {} [] [] [some (.assert .textStart .word)] cs := by
  rw [items_succ, skip_false]
  rfl

end Parse

open Crunch.Pattern.Parse

/-! ## Texts between the anchors -/

/-- A pattern before the end of the subject. -/
def tied (p : Pattern) : Pattern := .seq [.group p, .assert .textEnd .word]

/-- A pattern between the start and the end of the subject. -/
def enclosed (p : Pattern) : Pattern :=
  .seq [.assert .textStart .word, .group p, .assert .textEnd .word]

theorem toList_tied (source : String) :
    (grouped source ++ "$").toList = '(' :: '?' :: ':' :: (source.toList ++ closing) := by
  simp [grouped, closing]

theorem toList_anchored (source : String) :
    (anchored source).toList = '^' :: '(' :: '?' :: ':' :: (source.toList ++ closing) := by
  simp [anchored, closing]

/-- The alternatives at the start of a text, with the names of their groups and the text after
them. -/
def leading (source : String) : Option (Pattern × List (List Char) × List Char) :=
  items (source.toList.length + 1) {} [] [] [] source.toList

/-- The same in a group with the closing behind it. -/
def inner (f : Nat) (source : String) : Option (Pattern × List (List Char) × List Char) :=
  items f {} [] [] [] (source.toList ++ closing)

theorem leading_agrees (source : String) {f : Nat} (hf : source.toList.length + 2 < f) :
    Agrees (fun _ r => r = []) source.toList ((leading source).map paired) ((inner f source).map paired) :=
  items_agrees (.refl _) (Nat.lt_succ_self _) (by simpa [closing] using hf)

theorem leading_of_ofText {source : String} {q : Pattern} (h : ofText? source.toList = some q) :
    ∃ names, leading source = some (q, names, []) := by
  rw [ofText?, ← leading] at h
  split at h
  · next p names hl =>
    cases h
    exact ⟨names, hl⟩
  · cases h

/-- A pattern is read in the group as it is, or it ends in a comment that swallows the closing. -/
theorem inner_of_ofText {source : String} {q : Pattern} {f : Nat} (h : ofText? source.toList = some q)
    (hf : source.toList.length + 2 < f) :
    (∃ names, inner f source = some (q, names, closing)) ∨
    (Commented source.toList ∧ ∃ names, inner f source = some (q, names, [])) := by
  obtain ⟨names, hl⟩ := leading_of_ofText h
  have ha := leading_agrees source hf
  rw [hl] at ha
  generalize inner f source = e at ha
  rcases e with _ | ⟨p, names', r⟩
  · cases ha
  · cases ha with
    | read hr =>
      cases hr with
      | apart _ => exact .inl ⟨_, rfl⟩
      | swallowed hc => exact .inr ⟨hc, _, rfl⟩

/-- A pattern is enclosed as it is, unless it ends in a comment. -/
theorem ofText_enclosed {source : String} {q : Pattern} (h : ofText? source.toList = some q) :
    (ofText? (grouped source ++ "$").toList = some (tied q) ∧ ofText? (anchored source).toList = some (enclosed q)) ∨
    (Commented source.toList ∧ ofText? (grouped source ++ "$").toList = none ∧
      ofText? (anchored source).toList = none) := by
  have hl : (source.toList ++ closing).length = source.toList.length + 2 := by simp [closing]
  rw [toList_tied, toList_anchored, ofText?, ofText?]
  simp only [List.length_cons, hl, items_caret, items_grouped]
  obtain ⟨names, hi⟩ | ⟨hc, names, hi⟩ := inner_of_ofText h (f := source.toList.length + 5) (by omega)
  · left
    rw [inner] at hi
    simp only [hi]
    simp only [closing, items_dollar]
    exact ⟨rfl, rfl⟩
  · right
    rw [inner] at hi
    refine ⟨hc, ?_, ?_⟩
    · simp only [hi]
    · simp only [hi]

/-- The comment takes the end of the group with it. -/
example : (ofText? "(?x)a # c".toList).isSome ∧ ofText? (anchored "(?x)a # c").toList = none := by decide +kernel

/-! ## What patterns match -/

/-- What the text of a pattern matches. -/
def meaning? (source : String) : Option Spans :=
  (ofText? source.toList).map fun p s i j => Matches s.toList p i j

theorem meaning_of_ofText {source : String} {p : Pattern} (h : ofText? source.toList = some p) :
    meaning? source = some fun s i j => Matches s.toList p i j := by
  rw [meaning?, h, Option.map_some]

theorem meaning_of_none {source : String} (h : ofText? source.toList = none) : meaning? source = none := by
  rw [meaning?, h, Option.map_none]

theorem before_isNone {text : List Char} {i : Nat} (hi : i ≤ text.length) : (before text i).isNone = true ↔ i = 0 := by
  by_cases h0 : i = 0
  · simp [before, h0]
  · have hlt : i - 1 < text.length := by omega
    simp [before, h0, hlt]

theorem matches_textStart (text : List Char) (i j : Nat) :
    Matches text (.assert .textStart .word) i j ↔ i = 0 ∧ j = 0 := by
  simp only [Matches, Assertion.holds]
  constructor
  · rintro ⟨rfl, hi, hb⟩
    rw [before_isNone hi] at hb
    exact ⟨hb, hb⟩
  · rintro ⟨rfl, rfl⟩
    exact ⟨rfl, Nat.zero_le _, rfl⟩

theorem matches_textEnd (text : List Char) (i j : Nat) :
    Matches text (.assert .textEnd .word) i j ↔ i = text.length ∧ j = text.length := by
  simp only [Matches, Assertion.holds, Option.isNone_iff_eq_none, List.getElem?_eq_none_iff]
  omega

theorem matches_tied (text : List Char) (p : Pattern) (i k : Nat) :
    Matches text (tied p) i k ↔ ∃ j, Matches text p i j ∧ Matches text (.assert .textEnd .word) j k := by
  simp only [tied, Matches, MatchesSeq]
  exact ⟨fun ⟨j, h, _, h', rfl⟩ => ⟨j, h, h'⟩, fun ⟨j, h, h'⟩ => ⟨j, h, k, h', rfl⟩⟩

theorem matches_enclosed (text : List Char) (p : Pattern) (i k : Nat) :
    Matches text (enclosed p) i k ↔ ∃ j, Matches text (.assert .textStart .word) i j ∧ Matches text (tied p) j k := by
  simp only [enclosed, tied, Matches, MatchesSeq]

theorem ofText_caret : ofText? "^".toList = some (.assert .textStart .word) := by
  have hread : items 2 {} [] [] [] ['^'] = some (.assert .textStart .word, [], []) := by
    rw [items_caret, items_nil]
    rfl
  simp [ofText?, hread]

theorem ofText_dollar : ofText? "$".toList = some (.assert .textEnd .word) := by
  have hread : items 2 {} [] [] [] ['$'] = some (.assert .textEnd .word, [], []) := by
    rw [items_dollar]
    rfl
  simp [ofText?, hread]

theorem ofText_of_compiled {source : String} {test : Test} (h : Engine.bundled.compile source = .ok test) :
    ∃ p, ofText? source.toList = some p ∧ test = fun s => p.isMatch s.toList := by
  change (ofSource source).map _ = _ at h
  rw [ofSource] at h
  cases hp : ofText? source.toList with
  | none => rw [hp] at h; cases h
  | some p =>
    rw [hp] at h
    by_cases hl : p.depth ≤ maxDepth ∧ p.size ≤ maxSize
    · simp only [if_pos hl] at h
      cases h
      exact ⟨p, rfl, rfl⟩
    · simp only [if_neg hl] at h
      cases h

/-- The bundled engine has patterns by the usual rules. -/
theorem Engine.laws_bundled : Engine.bundled.Laws meaning? where
  compiled h := by
    obtain ⟨p, hp, rfl⟩ := ofText_of_compiled h
    refine ⟨_, meaning_of_ofText hp, fun s => ?_⟩
    rw [isMatch_iff, String.length_toList]
  textStart h s i j := by
    rw [meaning_of_ofText ofText_caret] at h
    cases h
    exact matches_textStart s.toList i j
  textEnd h s i j := by
    rw [meaning_of_ofText ofText_dollar] at h
    cases h
    have hend := matches_textEnd s.toList i j
    rwa [String.length_toList] at hend
  group_textEnd h hg := by
    obtain ⟨p, hp, rfl⟩ := Option.map_eq_some_iff.1 h
    obtain ⟨ht, -⟩ | ⟨-, ht, -⟩ := ofText_enclosed hp
    · rw [meaning_of_ofText ht] at hg
      cases hg
      exact ⟨_, meaning_of_ofText ofText_dollar, fun s i k => matches_tied s.toList p i k⟩
    · rw [meaning_of_none ht] at hg
      cases hg
  textStart_group h hs := by
    obtain ⟨p, hp, rfl⟩ := Option.map_eq_some_iff.1 h
    rw [← anchored_eq] at hs
    obtain ⟨ht, he⟩ | ⟨-, -, he⟩ := ofText_enclosed hp
    · rw [meaning_of_ofText he] at hs
      cases hs
      exact ⟨_, _, meaning_of_ofText ofText_caret, meaning_of_ofText ht,
        fun s i k => matches_enclosed s.toList p i k⟩
    · rw [meaning_of_none he] at hs
      cases hs

end Pattern
end Crunch
