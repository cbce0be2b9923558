import Crunch.Proofs.Continuation

/-!
# Crunch.Proofs.Openings

Repetitions, openings of groups and single items, on a text and on its continuation.
-/

namespace Crunch
namespace Pattern
namespace Parse

variable {base cs cs' r : List Char} {v : Bool} {fl : Flags} {f f' : Nat} {c : Char}

/-! ## Repetitions -/

theorem countDigits_eq (v : Bool) (f : Nat) (cs : List Char) :
    countDigits v f cs = spanned (fun c => '0' ≤ c ∧ c ≤ '9') v f cs := by
  induction f generalizing cs with
  | zero => rfl
  | succ f ih => cases cs with
    | nil => rfl
    | cons c cs => simp only [countDigits, spanned, ih, decide_eq_true_eq]

theorem Extends.dropBlanks (h : Extends base cs cs') :
    Extends base (cs.dropWhile Text.isBlank) (cs'.dropWhile Text.isBlank) := by
  cases h with
  | swallowed hb => exact .swallowed hb
  | apart h =>
    have hc : closing.dropWhile Text.isBlank = closing := by decide +kernel
    rw [List.dropWhile_append, hc]
    have hd := (List.dropWhile_suffix Text.isBlank).trans h
    cases hx : cs.dropWhile Text.isBlank with
    | nil => rw [hx] at hd; exact .apart hd
    | cons c x => rw [hx] at hd; exact .apart hd

theorem repeatCount_extends (h : Extends base cs cs') :
    ∃ n r r', repeatCount v cs = (n, r) ∧ repeatCount v cs' = (n, r') ∧ Extends base r r' := by
  have hl := (List.dropWhile_suffix Text.isBlank (l := cs)).length_le
  have hl' := (List.dropWhile_suffix Text.isBlank (l := cs')).length_le
  obtain ⟨ds, r, r', ho, he, hr⟩ := spanned_extends (p := fun c => '0' ≤ c ∧ c ≤ '9') (v := v)
    (by decide) h.dropBlanks (Nat.lt_succ_of_le hl) (Nat.lt_succ_of_le hl')
  simp only [repeatCount, countDigits_eq, ho, he]
  exact ⟨_, _, _, rfl, rfl, hr.dropBlanks.skip v⟩

/-- The upper bound of a repetition, after the lower one and a comma. -/
def upperBound (v : Bool) (low : Nat) (cs : List Char) : Option (Nat × Option Nat × List Char) :=
  match repeatCount v cs with
  | (some high, '\x7d' :: r) => if low ≤ high then some (low, some high, r) else none
  | _ => none

theorem upperBound_agrees (low : Nat) (h : Extends base cs cs') :
    Agrees never base ((upperBound v low cs).map paired) ((upperBound v low cs').map paired) := by
  obtain ⟨high?, r, r', ho, he, hr⟩ := repeatCount_extends (v := v) h
  rw [upperBound, upperBound, ho, he]
  cases high? with
  | none => exact .failed
  | some high =>
    cases hr with
    | swallowed _ => exact .failed
    | apart hr =>
      cases r with
      | nil => exact .failed
      | cons c r =>
        by_cases hc : c = '\x7d'
        · subst hc
          by_cases hlow : low ≤ high
          · simp only [List.cons_append, if_pos hlow]
            exact .read (.tail hr)
          · simp only [List.cons_append, if_neg hlow]
            exact .failed
        · simpa [hc] using Agrees.failed

theorem bounds_comma {low : Nat} (h : repeatCount v (skip v cs) = (some low, ',' :: r)) :
    bounds v cs = match skip v r with
      | '\x7d' :: r => some (low, none, r)
      | r => upperBound v low r := by
  simp only [bounds, h]
  rfl

theorem bounds_agrees (h : Extends base cs cs') :
    Agrees never base ((bounds v cs).map paired) ((bounds v cs').map paired) := by
  obtain ⟨low?, r, r', ho, he, hr⟩ := repeatCount_extends (v := v) (h.skip v)
  cases low? with
  | none => simpa [bounds, ho, he] using Agrees.failed
  | some low =>
    cases hr with
    | swallowed _ => simpa [bounds, ho, he] using Agrees.failed
    | apart hr =>
      cases r with
      | nil => simpa [bounds, ho, he, closing] using Agrees.failed
      | cons c r =>
        by_cases hc : c = '\x7d'
        · subst hc
          rw [bounds, bounds, ho, he]
          exact .read (.tail hr)
        by_cases hc' : c = ','
        · subst hc'
          rw [bounds_comma ho, bounds_comma he]
          have hs := (Extends.tail hr).skip v
          generalize skip v r = x, skip v (r ++ closing) = x' at hs
          have hu := upperBound_agrees (v := v) low hs
          cases hs with
          | swallowed _ => exact hu
          | apart hs =>
            cases x with
            | nil => exact hu
            | cons d x =>
              by_cases hd : d = '\x7d'
              · subst hd
                exact .read (.tail hs)
              · simpa [hd] using hu
        · simpa [bounds, ho, he, hc, hc'] using Agrees.failed

theorem Extends.dropLazy (h : Extends base cs cs') :
    Extends base (dropLazy cs) (dropLazy cs') := by
  cases h with
  | swallowed hb => exact .swallowed hb
  | apart h =>
    cases cs with
    | nil => exact .apart h
    | cons c cs =>
      by_cases hc : c = '?'
      · subst hc
        exact .tail h
      · have hd : ∀ x, Parse.dropLazy (c :: x) = c :: x := fun x => by simp [Parse.dropLazy, hc]
        rw [List.cons_append, hd, hd]
        exact .apart h

/-- A repetition starts with the same character in both texts and has the same bounds. -/
theorem repetition_extends (h : cs <:+ base) :
    (repetition? v (c :: cs) = none ∧ repetition? v (c :: (cs ++ closing)) = none) ∨
    (repetition? v (c :: cs) = some none ∧ repetition? v (c :: (cs ++ closing)) = some none) ∨
    ∃ least most r r', repetition? v (c :: cs) = some (some (least, most, r)) ∧
      repetition? v (c :: (cs ++ closing)) = some (some (least, most, r')) ∧ Extends base r r' := by
  have ht := Extends.apart h
  by_cases h₁ : c = '?'
  · subst h₁
    exact .inr (.inr ⟨_, _, _, _, rfl, rfl, ht.dropLazy⟩)
  by_cases h₂ : c = '*'
  · subst h₂
    exact .inr (.inr ⟨_, _, _, _, rfl, rfl, ht.dropLazy⟩)
  by_cases h₃ : c = '+'
  · subst h₃
    exact .inr (.inr ⟨_, _, _, _, rfl, rfl, ht.dropLazy⟩)
  by_cases h₄ : c = '\x7b'
  · subst h₄
    have hb := bounds_agrees (v := v) ht
    simp only [repetition?]
    cases ho : bounds v cs with
    | none =>
      cases he : bounds v (cs ++ closing) with
      | none => exact .inr (.inl ⟨rfl, rfl⟩)
      | some p => rw [ho, he] at hb; cases hb with | late hl => exact hl.elim
    | some p =>
      obtain ⟨least, most, r⟩ := p
      cases he : bounds v (cs ++ closing) with
      | none => rw [ho, he] at hb; cases hb
      | some p =>
        obtain ⟨least', most', r'⟩ := p
        rw [ho, he] at hb
        cases hb with
        | read hr => exact .inr (.inr ⟨_, _, _, _, rfl, rfl, (hr.skip v).dropLazy⟩)
  · have hn : ∀ x, repetition? v (c :: x) = none := by
      intro x
      unfold repetition?
      split <;> simp_all
    exact .inl ⟨hn cs, hn _⟩

/-! ## Groups and single items -/

theorem groupName_agrees (h : cs <:+ base) :
    Agrees never base (groupName cs) (groupName (cs ++ closing)) := by
  rw [groupName, groupName]
  obtain ⟨a, b, rfl, ho, he⟩ | ⟨ho, he⟩ := takeWhile_closing (s := '>') (by decide) cs
  · have hb : b <:+ base := List.IsSuffix.trans ⟨a ++ ['>'], by simp⟩ h
    rw [ho, he, List.append_assoc, List.drop_left, List.drop_left]
    cases a with
    | nil => exact .failed
    | cons c a => exact .ite (fun _ => .read (.apart hb)) fun _ => .failed
  · rw [ho, he, List.drop_length, List.drop_length]
    exact .failed

/-- The flags are read up to the parenthesis of the closing at most. -/
theorem flagItems_agrees (negated dangling : Bool) (seen : List Char) (h : Extends base cs cs') :
    Agrees (fun a r => a.2 = ')' ∧ r = ['$']) base
      ((flagItems negated dangling seen cs).map paired)
      ((flagItems negated dangling seen cs').map paired) := by
  cases h with
  | swallowed _ => exact .failed
  | apart h =>
    induction cs generalizing negated dangling seen with
    | nil =>
      cases dangling with
      | true => exact .failed
      | false => exact .late ⟨rfl, rfl⟩
    | cons c cs ih =>
      have ht := (List.suffix_cons _ _).trans h
      rw [List.cons_append, flagItems, flagItems]
      by_cases h₁ : c = ':' ∨ c = ')'
      · simp only [if_pos h₁]
        cases dangling with
        | true => exact .failed
        | false => exact .read (.apart ht)
      simp only [if_neg h₁]
      by_cases h₂ : c = '-'
      · simp only [if_pos h₂]
        cases negated with
        | true => exact .failed
        | false => exact ih true true seen ht
      simp only [if_neg h₂]
      by_cases h₃ : (['i', 'm', 's', 'U', 'u', 'R', 'x'].contains c && !seen.contains c) = true
      · simp only [if_pos h₃, Option.map_map]
        have hm : Agrees (fun (a : List (Char × Bool) × Char) r => a.2 = ')' ∧ r = ['$']) base _ _ :=
          (ih negated false (c :: seen) ht).map (fun a => ((c, !negated) :: a.1, a.2)) fun _ _ h => h
        simp only [Option.map_map] at hm
        exact hm
      · simp only [if_neg h₃]
        exact .failed

/-- A group without a name, or flags for the rest of the group around them. -/
def flagsOpening (fl : Flags) (cs : List Char) : Option (Opening × List Char) :=
  match flagItems false false [] cs with
  | none => none
  | some (items, e, r) =>
    let fl' := items.foldl Flags.set fl
    if e = ':' then some (.group fl' none, r)
    else if items = [] then none
    else some (.flags fl', r)

theorem flagsOpening_agrees (h : Extends base cs cs') :
    Agrees (fun a r => (∃ fl', a = .flags fl') ∧ r = ['$']) base (flagsOpening fl cs)
      (flagsOpening fl cs') := by
  have hi := flagItems_agrees false false [] h
  rw [flagsOpening, flagsOpening]
  cases ho : flagItems false false [] cs with
  | none =>
    cases he : flagItems false false [] cs' with
    | none => exact .failed
    | some p =>
      obtain ⟨items, e, r⟩ := p
      rw [ho, he] at hi
      cases hi with
      | late hl =>
        obtain ⟨rfl, rfl⟩ := hl
        simp only
        rw [if_neg (by decide)]
        by_cases hn : items = []
        · rw [if_pos hn]
          exact .failed
        · rw [if_neg hn]
          exact .late ⟨⟨_, rfl⟩, rfl⟩
  | some p =>
    obtain ⟨items, e, r⟩ := p
    cases he : flagItems false false [] cs' with
    | none => rw [ho, he] at hi; cases hi
    | some p =>
      obtain ⟨items', e', r'⟩ := p
      rw [ho, he] at hi
      cases hi with
      | read hr => exact .ite (fun _ => .read hr) fun _ => .ite (fun _ => .failed) fun _ => .read hr

theorem opening_flags (h₁ : c ≠ '=') (h₂ : c ≠ '!') (h₃ : c ≠ '<')
    (h₄ : c = 'P' → cs.head? ≠ some '<') :
    opening fl ('?' :: c :: cs) = flagsOpening fl (c :: cs) := by
  unfold opening
  simp only
  split
  next heq => exact absurd (List.cons.inj heq).1 h₁
  next heq => exact absurd (List.cons.inj heq).1 h₂
  next heq => exact absurd (List.cons.inj heq).1 h₃
  next heq => exact absurd (List.cons.inj heq).1 h₃
  next heq =>
    obtain ⟨hc, rfl⟩ := List.cons.inj heq
    exact absurd rfl (h₄ hc)
  next heq => exact absurd (List.cons.inj heq).1 h₃
  next => rfl

theorem opening_name (h₁ : c ≠ '=') (h₂ : c ≠ '!') :
    opening fl ('?' :: '<' :: c :: cs) =
      (groupName (c :: cs)).map fun (n, r) => (.group fl (some n), r) := by
  simp [opening, h₁, h₂]

/-- What follows an opening parenthesis, up to the parenthesis of the closing at most. -/
theorem opening_agrees (fl : Flags) (h : Extends base cs cs') :
    Agrees (fun a r => (∃ fl', a = .flags fl') ∧ r = ['$']) base (opening fl cs)
      (opening fl cs') := by
  cases h with
  | swallowed hb => exact .read (.swallowed hb)
  | apart h =>
    cases cs with
    | nil => exact .read (.apart h)
    | cons c cs =>
      by_cases hc : c = '?'
      · subst hc
        have ht := (List.suffix_cons _ _).trans h
        have named : ∀ {x}, x <:+ base →
            Agrees (fun a r => (∃ fl', a = .flags fl') ∧ r = ['$']) base
              ((groupName x).map fun (n, r) => (Opening.group fl (some n), r))
              ((groupName (x ++ closing)).map fun (n, r) => (Opening.group fl (some n), r)) :=
          fun hx => (groupName_agrees hx).map (fun n => Opening.group fl (some n)) fun _ _ h => h.elim
        cases cs with
        | nil => exact .failed
        | cons c cs =>
          have htt := (List.suffix_cons _ _).trans ht
          by_cases h₁ : c = '='
          · subst h₁
            exact .failed
          by_cases h₂ : c = '!'
          · subst h₂
            exact .failed
          by_cases h₃ : c = '<'
          · subst h₃
            cases cs with
            | nil => exact named htt
            | cons d cs =>
              by_cases h₁ : d = '='
              · subst h₁
                exact .failed
              by_cases h₂ : d = '!'
              · subst h₂
                exact .failed
              · rw [List.cons_append, List.cons_append, List.cons_append, opening_name h₁ h₂,
                  opening_name h₁ h₂]
                exact named htt
          by_cases h₄ : c = 'P' ∧ cs.head? = some '<'
          · obtain ⟨rfl, h₄⟩ := h₄
            obtain ⟨cs, rfl⟩ : ∃ t, cs = '<' :: t := by
              cases cs with
              | nil => cases h₄
              | cons d cs => cases h₄; exact ⟨cs, rfl⟩
            exact named ((List.suffix_cons _ _).trans htt)
          · have hh : (cs ++ closing).head? = some '<' → cs.head? = some '<' := by
              cases cs with
              | nil => intro h; cases h
              | cons d cs => exact id
            rw [List.cons_append, List.cons_append, opening_flags h₁ h₂ h₃ fun hc h => h₄ ⟨hc, h⟩,
              opening_flags h₁ h₂ h₃ fun hc h => h₄ ⟨hc, hh h⟩]
            exact flagsOpening_agrees (.apart ht)
      · have ho : ∀ x, opening fl (c :: x) = some (.group fl none, c :: x) := fun x => by
          simp [opening, hc]
        rw [List.cons_append, ho, ho]
        exact .read (.apart h)

theorem primitive_agrees (fl : Flags) (h : cs <:+ base) :
    Agrees (fun _ r => r = ['$'] ∨ ∃ x, r = '\x7b' :: x ∧ skip fl.verbose x = closing) base
      (primitive fl (c :: cs)) (primitive fl (c :: (cs ++ closing))) := by
  have ht := Extends.apart h
  rw [primitive, primitive]
  refine .ite (fun _ => ?_) fun _ => ?_
  · have he := escape_agrees fl h
    generalize escape fl cs = o, escape fl (cs ++ closing) = e at he
    cases he with
    | failed => exact .failed
    | read hr => exact .const _ _ hr
    | late hl =>
      cases hl with
      | parenthesis => exact .late_const _ _ fun _ => .inl rfl
      | brace hx => exact .late_const _ _ fun _ => .inr ⟨_, rfl, hx⟩
  refine .ite (fun _ => .const _ _ ht) fun _ => .ite (fun _ => .read ht) fun _ => ?_
  exact .ite (fun _ => .read ht) fun _ => .const _ _ ht

end Parse
end Pattern
end Crunch
