import Crunch.Proofs.Continuation

/-!
# Crunch.Proofs.Brackets

Classes in brackets, on a text and on its continuation.

* `Pattern.Parse.class_agrees`: with the same fuel a class is the same in both, and one that the text
  does not close is not closed behind it.
* `Pattern.Parse.class_fuel`: a class needs no more fuel than it has characters.
* `Pattern.Parse.bracket_agrees`: so it is the same with the fuel of its own text.
-/

namespace Crunch
namespace Pattern
namespace Parse

variable {base cs cs' : List Char} {v : Bool} {fl : Flags} {f f' : Nat} {c : Char}

theorem classItem_agrees (fl : Flags) (h : cs <:+ base) :
    Agrees (LateAtom fl.verbose) base (classItem fl (c :: cs))
      (classItem fl (c :: (cs ++ closing))) := by
  by_cases hc : c = '\\'
  · subst hc
    exact escape_agrees fl h
  · simp only [classItem]
    exact .read (.apart h)

/-- The range between two atoms. -/
def between (fl : Flags) : Atom → Atom → Option CharSet
  | .literal low _, .literal high _ =>
    match classLiteral fl low, classLiteral fl high with
    | some l, some h => if l ≤ h then some (.range l h) else none
    | _, _ => none
  | _, _ => none

theorem between_assertion (a : Atom) (b : Assertion) : between fl a (.assertion b) = none := by
  cases a <;> rfl

theorem classRange_eq (fl : Flags) (cs : List Char) :
    classRange fl cs =
      match classItem fl cs with
      | none => none
      | some (a, rest) =>
        match skip fl.verbose rest with
        | [] => none
        | '-' :: rest' =>
          match skip fl.verbose rest' with
          | [] => none
          | c :: next =>
            if c = ']' ∨ c = '-' then (itemSet fl a).map fun s => (s, '-' :: rest')
            else
              match classItem fl (c :: next) with
              | some (b, r) => (between fl a b).map fun s => (s, r)
              | none => none
        | rest => (itemSet fl a).map fun s => (s, rest) := by
  rw [classRange]
  rcases classItem fl cs with _ | ⟨a, rest⟩
  · rfl
  simp only
  generalize skip fl.verbose rest = x
  cases x with
  | nil => rfl
  | cons d x =>
    by_cases hd : d = '-'
    · subst hd
      simp only
      generalize skip fl.verbose x = y
      cases y with
      | nil => rfl
      | cons c y =>
        simp only
        congr 1
        rcases classItem fl (c :: y) with _ | ⟨b, r⟩
        · cases a <;> rfl
        · cases a with
          | literal low =>
            cases b with
            | literal high =>
              simp only [between]
              cases classLiteral fl low with
              | none => rfl
              | some l =>
                cases classLiteral fl high with
                | none => rfl
                | some h => by_cases hlh : l ≤ h <;> simp [hlh]
            | set s => rfl
            | assertion b => rfl
          | set s => rfl
          | assertion a => rfl
    · simp [hd]

/-- What a class can make of the closing: a character or the end of a range. -/
def LateClass (r : List Char) : Prop := r = ['$'] ∨ r = closing

theorem classRange_agrees (fl : Flags) (h : cs <:+ base) :
    Agrees (fun _ r => LateClass r) base (classRange fl (c :: cs))
      (classRange fl (c :: (cs ++ closing))) := by
  rw [classRange_eq, classRange_eq]
  have hi := classItem_agrees fl (c := c) h
  generalize classItem fl (c :: cs) = o, classItem fl (c :: (cs ++ closing)) = e at hi
  cases hi with
  | failed => exact .failed
  | late hl =>
    cases hl with
    | parenthesis =>
      simp only [skip_dollar]
      exact .late_const _ _ fun _ => .inl rfl
    | brace _ =>
      simp only [skip_cons (c := '\x7b') (by decide +kernel) (by decide)]
      exact .failed
  | @read a r r' hr =>
    have hr := hr.skip fl.verbose
    simp only
    generalize skip fl.verbose r = x, skip fl.verbose r' = x' at hr
    cases hr with
    | swallowed _ => exact .failed
    | apart hr =>
      cases x with
      | nil => exact .late_const _ _ fun _ => .inr rfl
      | cons d x =>
        by_cases hd : d = '-'
        · subst hd
          simp only [List.cons_append]
          have hs := (Extends.tail hr).skip fl.verbose
          generalize skip fl.verbose x = y, skip fl.verbose (x ++ closing) = y' at hs
          cases hs with
          | swallowed _ => exact .failed
          | apart hs =>
            cases y with
            | nil => exact .late_const _ _ fun _ => .inl rfl
            | cons b y =>
              refine .ite (fun _ => .const _ _ (.apart hr)) fun _ => ?_
              have hi := classItem_agrees fl (c := b) ((List.suffix_cons _ _).trans hs)
              generalize classItem fl (b :: y) = o, classItem fl (b :: (y ++ closing)) = e at hi
              cases hi with
              | failed => exact .failed
              | read hr => exact .const _ _ hr
              | late hl =>
                cases hl with
                | parenthesis => exact .late_const _ _ fun _ => .inl rfl
                | brace _ => simp only [between_assertion]; exact .failed
        · have hc : Agrees (fun _ r => LateClass r) base _ _ :=
            .const (itemSet fl a) id (.apart hr)
          simpa [hd] using hc

theorem leadingHyphens_eq (v : Bool) (f : Nat) (cs : List Char) :
    leadingHyphens v f cs =
      (!(spanned (· == '-') v f cs).1.isEmpty, (spanned (· == '-') v f cs).2) := by
  induction f generalizing cs with
  | zero => rfl
  | succ f ih =>
    cases cs with
    | nil => rfl
    | cons c cs =>
      by_cases hc : c = '-'
      · subst hc
        simp [leadingHyphens, spanned, ih]
      · simp [leadingHyphens, spanned, hc]

/-- A named class behind its colon and the sign of its negation. -/
def className (negated : Bool) (cs : List Char) : Option (Bool × CharSet × List Char) :=
  let name := cs.takeWhile (· != ':')
  match cs.drop name.length with
  | ':' :: ']' :: r => (CharSet.ofClassName? (String.ofList name)).map fun s => (negated, s, r)
  | _ => none

theorem namedClass_colon (hc : c ≠ '^') :
    namedClass? (':' :: c :: cs) = className false (c :: cs) := by
  have h := namedClass?.eq_def (':' :: c :: cs)
  simp [hc] at h
  exact h

theorem className_agrees (negated : Bool) (h : cs <:+ base) :
    Agrees never base ((className negated cs).map paired)
      ((className negated (cs ++ closing)).map paired) := by
  rw [className, className]
  obtain ⟨a, b, rfl, ho, he⟩ | ⟨ho, he⟩ := takeWhile_closing (s := ':') (by decide) cs
  · rw [ho, he, List.append_assoc, List.drop_left, List.drop_left]
    cases b with
    | nil => exact .failed
    | cons d b =>
      by_cases hd : d = ']'
      · subst hd
        have hb : b <:+ base := List.IsSuffix.trans ⟨a ++ [':', ']'], by simp⟩ h
        simp only [List.cons_append, Option.map_map]
        exact .const _ (fun s => (negated, s)) (.apart hb)
      · simpa [hd] using Agrees.failed
  · rw [ho, he, List.drop_length, List.drop_length]
    exact .failed

theorem namedClass_agrees (h : cs <:+ base) :
    Agrees never base ((namedClass? cs).map paired) ((namedClass? (cs ++ closing)).map paired) := by
  cases cs with
  | nil => exact .failed
  | cons c cs =>
    by_cases hc : c = ':'
    · subst hc
      have ht := (List.suffix_cons _ _).trans h
      cases cs with
      | nil => exact className_agrees false ht
      | cons d cs =>
        by_cases hd : d = '^'
        · subst hd
          exact className_agrees true ((List.suffix_cons _ _).trans ht)
        · simp only [List.cons_append, namedClass_colon hd]
          exact className_agrees false ht
    · simpa [namedClass?, hc] using Agrees.failed

/-- What stands at the start of a class: the sign of its negation, and hyphens or a bracket that
stand for themselves. -/
def classStart (v : Bool) (cs : List Char) : Bool × CharSet × List Char :=
  let cs := skip v cs
  let (negated, cs) := match cs with
    | '^' :: rest => (true, skip v rest)
    | _ => (false, cs)
  let (hyphen, cs) := leadingHyphens v (cs.length + 1) cs
  let (part, cs) :=
    if hyphen then (CharSet.single '-', cs)
    else
      match cs with
      | ']' :: rest => (CharSet.single ']', skip v rest)
      | _ => (CharSet.empty, cs)
  (negated, part, cs)

theorem bracket_succ (fl : Flags) (f : Nat) (cs : List Char) :
    bracket fl (f + 1) cs =
      match classStart fl.verbose cs with
      | (negated, part, cs) =>
        match classBody fl f none part cs with
        | some (s, rest) => (finishClass fl negated s).map fun s => (s, rest)
        | none => none := by
  exact bracket.eq_def fl (f + 1) cs

theorem classStart_extends (h : Extends base cs cs') :
    ∃ negated part r r', classStart v cs = (negated, part, r) ∧
      classStart v cs' = (negated, part, r') ∧ Extends base r r' := by
  have caret : ∃ negated r r',
      (match skip v cs with
        | '^' :: rest => (true, skip v rest)
        | _ => (false, skip v cs)) = (negated, r) ∧
      (match skip v cs' with
        | '^' :: rest => (true, skip v rest)
        | _ => (false, skip v cs')) = (negated, r') ∧ Extends base r r' := by
    have h := h.skip v
    generalize skip v cs = x, skip v cs' = x' at h
    cases h with
    | swallowed hb => exact ⟨false, [], [], rfl, rfl, .swallowed hb⟩
    | apart h =>
      cases x with
      | nil => exact ⟨false, [], closing, rfl, rfl, .apart h⟩
      | cons c x =>
        by_cases hc : c = '^'
        · subst hc
          exact ⟨true, _, _, rfl, rfl, (Extends.tail h).skip v⟩
        · exact ⟨false, c :: x, c :: x ++ closing, by simp [hc], by simp [hc], .apart h⟩
  obtain ⟨negated, r, r', ho, he, hr⟩ := caret
  obtain ⟨hyphens, s, s', hyo, hye, hs⟩ := spanned_extends (p := (· == '-')) (v := v) (by decide)
    hr (Nat.lt_succ_self _) (Nat.lt_succ_self _)
  simp only [classStart, ho, he, leadingHyphens_eq, hyo, hye]
  cases hyphens with
  | cons _ _ => exact ⟨negated, _, s, s', rfl, rfl, hs⟩
  | nil =>
    cases hs with
    | swallowed hb => exact ⟨negated, _, [], [], rfl, rfl, .swallowed hb⟩
    | apart hs =>
      cases s with
      | nil => exact ⟨negated, _, [], closing, rfl, rfl, .apart hs⟩
      | cons c s =>
        by_cases hc : c = ']'
        · subst hc
          exact ⟨negated, _, _, _, rfl, rfl, (Extends.tail hs).skip v⟩
        · exact ⟨negated, _, c :: s, c :: s ++ closing, by simp [hc]; rfl, by simp [hc], .apart hs⟩

/-- An operator between two parts of a class. -/
def operator? : List Char → Option (SetOp × List Char)
  | '&' :: '&' :: rest => some (.inter, rest)
  | '-' :: '-' :: rest => some (.minus, rest)
  | '~' :: '~' :: rest => some (.symmetric, rest)
  | _ => none

theorem classBody_succ (fl : Flags) (f : Nat) (pending : Option (SetOp × CharSet))
    (part : CharSet) (cs : List Char) :
    classBody fl (f + 1) pending part cs =
      match skip fl.verbose cs with
      | [] => none
      | c :: rest =>
        if c = ']' then some (combine fl pending part, rest)
        else if c = '[' then
          match (namedClass? rest).map paired with
          | some ((negated, s), rest) =>
            classBody fl f pending
              (.union part (if negated then .complement (fold fl s) else fold fl s)) rest
          | none =>
            match bracket fl f rest with
            | some (s, rest) => classBody fl f pending (.union part s) rest
            | none => none
        else
          match operator? (c :: rest) with
          | some (op, rest) => classBody fl f (some (op, combine fl pending part)) .empty rest
          | none =>
            match classRange fl (c :: rest) with
            | some (s, rest) => classBody fl f pending (.union part s) rest
            | none => none := by
  rw [classBody]
  split
  · simp [*]
  · simp [*]
  · simp only [*]
    rcases namedClass? _ with _ | ⟨negated, s, rest⟩ <;> rfl
  · simp [*, operator?]
  · simp [*, operator?]
  · simp [*, operator?]
  next c rest h₁ h₂ h₃ h₄ h₅ heq =>
    have ho : operator? (c :: rest) = none := by
      unfold operator?
      split
      next heq => exact (h₃ _ (List.cons.inj heq).1 (List.cons.inj heq).2).elim
      next heq => exact (h₄ _ (List.cons.inj heq).1 (List.cons.inj heq).2).elim
      next heq => exact (h₅ _ (List.cons.inj heq).1 (List.cons.inj heq).2).elim
      next => rfl
    rw [heq]
    rcases hr : classRange fl (c :: rest) with _ | ⟨s, r⟩ <;>
      simp only [if_neg h₁, if_neg h₂, ho, hr]

theorem operator_agrees (h : cs <:+ base) :
    Agrees never base (operator? (c :: cs)) (operator? (c :: (cs ++ closing))) := by
  cases cs with
  | nil => simpa [operator?, closing] using Agrees.failed
  | cons d cs =>
    have ht := Extends.tail h
    rw [List.cons_append]
    by_cases h₁ : c = '&' ∧ d = '&'
    · obtain ⟨rfl, rfl⟩ := h₁
      exact .read ht
    by_cases h₂ : c = '-' ∧ d = '-'
    · obtain ⟨rfl, rfl⟩ := h₂
      exact .read ht
    by_cases h₃ : c = '~' ∧ d = '~'
    · obtain ⟨rfl, rfl⟩ := h₃
      exact .read ht
    · have hn : ∀ x, operator? (c :: d :: x) = none := by
        intro x
        unfold operator?
        split <;> simp_all
      rw [hn, hn]
      exact .failed

section

variable (f : Nat) (pending : Option (SetOp × CharSet)) (part : CharSet)

theorem classBody_dollar : classBody fl f pending part ['$'] = none := by
  cases f with
  | zero => rfl
  | succ f =>
    have hr : classRange fl ['$'] = none := by
      rw [classRange]
      simp [classItem]
    rw [classBody_succ, skip_dollar]
    simp [operator?, hr]

/-- A class is not closed by the end of a group. -/
theorem classBody_of_closing (h : skip fl.verbose cs = closing) :
    classBody fl f pending part cs = none := by
  cases f with
  | zero => rfl
  | succ f =>
    have hr : classRange fl [')', '$'] =
        (itemSet fl (.literal ')' false)).map fun s => (s, ['$']) := by
      rw [classRange]
      simp [classItem]
    rw [classBody_succ, h, closing]
    simp only [operator?, hr]
    cases itemSet fl (.literal ')' false) with
    | none => rfl
    | some s => exact classBody_dollar _ _ _

theorem classBody_late (h : LateClass cs) : classBody fl f pending part cs = none := by
  obtain rfl | rfl := h
  · exact classBody_dollar _ _ _
  · exact classBody_of_closing _ _ _ (skip_closing _)

end

theorem class_agrees (fl : Flags) (f : Nat) :
    (∀ {base cs cs'}, Extends base cs cs' →
      Agrees never base (bracket fl f cs) (bracket fl f cs')) ∧
    (∀ {base cs cs'} pending part, Extends base cs cs' →
      Agrees never base (classBody fl f pending part cs) (classBody fl f pending part cs')) := by
  induction f with
  | zero => exact ⟨fun _ => .failed, fun _ _ _ => .failed⟩
  | succ f ih =>
    obtain ⟨ihb, ihc⟩ := ih
    constructor
    · intro base cs cs' h
      obtain ⟨negated, part, r, r', ho, he, hr⟩ := classStart_extends (v := fl.verbose) h
      rw [bracket_succ, bracket_succ, ho, he]
      have hb := ihc none part hr
      simp only
      generalize classBody fl f none part r = o, classBody fl f none part r' = e at hb
      cases hb with
      | failed => exact .failed
      | late hl => exact hl.elim
      | read hr => exact .const _ _ hr
    · intro base cs cs' pending part h
      have h := h.skip fl.verbose
      generalize hx : skip fl.verbose cs = x, hx' : skip fl.verbose cs' = x' at h
      cases h with
      | swallowed _ =>
        rw [classBody_succ, classBody_succ, hx, hx']
        exact .failed
      | apart h =>
        cases x with
        | nil =>
          rw [classBody_succ, hx, classBody_of_closing _ _ _ hx']
          exact .failed
        | cons c x =>
          rw [classBody_succ, classBody_succ, hx, hx']
          have ht := (List.suffix_cons _ _).trans h
          simp only [List.cons_append]
          refine .ite (fun _ => .read (.apart ht)) fun _ => .ite (fun _ => ?_) fun _ => ?_
          · have hn := namedClass_agrees ht
            generalize (namedClass? x).map paired = o, (namedClass? (x ++ closing)).map paired = e
              at hn
            cases hn with
            | late hl => exact hl.elim
            | read hr => exact ihc _ _ hr
            | failed =>
              have hb := ihb (.apart ht)
              simp only
              generalize bracket fl f x = o, bracket fl f (x ++ closing) = e at hb
              cases hb with
              | failed => exact .failed
              | late hl => exact hl.elim
              | read hr => exact ihc _ _ hr
          · have ho := operator_agrees (c := c) ht
            generalize operator? (c :: x) = o, operator? (c :: (x ++ closing)) = e at ho
            cases ho with
            | late hl => exact hl.elim
            | read hr => exact ihc _ _ hr
            | failed =>
              have hr := classRange_agrees fl (c := c) ht
              simp only
              generalize classRange fl (c :: x) = o, classRange fl (c :: (x ++ closing)) = e at hr
              cases hr with
              | failed => exact .failed
              | read hr => exact ihc _ _ hr
              | late hl =>
                simp only [classBody_late _ _ _ hl]
                exact .failed

/-- A class is shorter than its text, and fuel for its characters is enough for it. -/
theorem class_fuel (fl : Flags) (f : Nat) :
    (∀ cs s r, bracket fl f cs = some (s, r) → r.length < cs.length ∧
      ∀ f', cs.length < r.length + f' → bracket fl f' cs = some (s, r)) ∧
    (∀ pending part cs s r, classBody fl f pending part cs = some (s, r) → r.length < cs.length ∧
      ∀ f', cs.length ≤ r.length + f' → classBody fl f' pending part cs = some (s, r)) := by
  induction f with
  | zero => exact ⟨fun _ _ _ h => (nomatch h), fun _ _ _ _ _ h => (nomatch h)⟩
  | succ f ih =>
    obtain ⟨ihb, ihc⟩ := ih
    constructor
    · intro cs s r h
      obtain ⟨negated, part, x, x', hx, -, hl⟩ := classStart_extends (v := fl.verbose) (.refl cs)
      have hl := hl.length_le.1
      rw [bracket_succ, hx] at h
      simp only at h
      cases hb : classBody fl f none part x with
      | none => rw [hb] at h; cases h
      | some p =>
        obtain ⟨t, y⟩ := p
        rw [hb] at h
        obtain ⟨u, hu, heq⟩ := Option.map_eq_some_iff.1 h
        cases heq
        obtain ⟨hlt, hmore⟩ := ihc _ _ _ _ _ hb
        refine ⟨by omega, fun f' hf' => ?_⟩
        obtain ⟨f', rfl⟩ : ∃ k, f' = k + 1 := ⟨f' - 1, by omega⟩
        rw [bracket_succ, hx]
        simp only [hmore f' (by omega)]
        exact h
    · intro pending part cs s r h
      have hl := length_skip_le fl.verbose cs
      rw [classBody_succ] at h
      -- the fuel for the whole body is one more than what its rest needs
      suffices hs : r.length < cs.length ∧ ∀ f', cs.length ≤ r.length + (f' + 1) →
          classBody fl (f' + 1) pending part cs = some (s, r) by
        refine ⟨hs.1, fun f' hf' => ?_⟩
        obtain ⟨f', rfl⟩ : ∃ k, f' = k + 1 := ⟨f' - 1, by omega⟩
        exact hs.2 f' hf'
      simp only [classBody_succ]
      cases hx : skip fl.verbose cs with
      | nil => rw [hx] at h; cases h
      | cons c x =>
        rw [hx] at h hl
        simp only [List.length_cons] at h hl
        by_cases hc : c = ']'
        · rw [if_pos hc] at h
          cases h
          exact ⟨by omega, fun f' hf' => if_pos hc⟩
        rw [if_neg hc] at h
        simp only [if_neg hc]
        by_cases hc : c = '['
        · rw [if_pos hc] at h
          simp only [if_pos hc]
          cases hn : (namedClass? x).map paired with
          | some p =>
            obtain ⟨⟨negated, t⟩, y⟩ := p
            have hy := namedClass_agrees (List.suffix_refl x)
            rw [hn] at h hy
            have hy := hy.length_le
            obtain ⟨hlt, hmore⟩ := ihc _ _ _ _ _ h
            exact ⟨by omega, fun f' hf' => hmore f' (by omega)⟩
          | none =>
            rw [hn] at h
            simp only at h
            cases hb : bracket fl f x with
            | none => rw [hb] at h; cases h
            | some p =>
              obtain ⟨t, y⟩ := p
              rw [hb] at h
              obtain ⟨hy, hbmore⟩ := ihb _ _ _ hb
              obtain ⟨hlt, hmore⟩ := ihc _ _ _ _ _ h
              refine ⟨by omega, fun f' hf' => ?_⟩
              simp only [hbmore f' (by omega)]
              exact hmore f' (by omega)
        rw [if_neg hc] at h
        simp only [if_neg hc]
        cases ho : operator? (c :: x) with
        | some p =>
          obtain ⟨op, y⟩ := p
          have hy := operator_agrees (c := c) (List.suffix_refl x)
          rw [ho] at h hy
          have hy := hy.length_le
          obtain ⟨hlt, hmore⟩ := ihc _ _ _ _ _ h
          exact ⟨by omega, fun f' hf' => hmore f' (by omega)⟩
        | none =>
          rw [ho] at h
          simp only at h
          cases hr : classRange fl (c :: x) with
          | none => rw [hr] at h; cases h
          | some p =>
            obtain ⟨t, y⟩ := p
            have hy := classRange_agrees fl (c := c) (List.suffix_refl x)
            rw [hr] at h hy
            have hy := hy.length_le
            obtain ⟨hlt, hmore⟩ := ihc _ _ _ _ _ h
            exact ⟨by omega, fun f' hf' => hmore f' (by omega)⟩

/-- A class with the fuel that its own text gives it. -/
theorem bracket_agrees (fl : Flags) (h : Extends base cs cs') :
    Agrees never base (bracket fl (cs.length + 1) cs) (bracket fl (cs'.length + 1) cs') := by
  cases h with
  | swallowed hb => exact (class_agrees fl 1).1 (.swallowed hb)
  | apart hs =>
    have ha := (class_agrees fl ((cs ++ closing).length + 1)).1 (.apart hs)
    have hl : (cs ++ closing).length = cs.length + 2 := by simp [closing]
    have same : bracket fl ((cs ++ closing).length + 1) cs = bracket fl (cs.length + 1) cs := by
      apply Option.ext
      rintro ⟨s, r⟩
      constructor
      · intro hm
        exact ((class_fuel fl _).1 cs s r hm).2 _ (by omega)
      · intro hm
        exact ((class_fuel fl _).1 cs s r hm).2 _ (by omega)
    rwa [same] at ha

end Parse
end Pattern
end Crunch
