import Crunch.Pattern.Parse

/-!
# Crunch.Proofs.Continuation

Readers of patterns on a text and on the same text with the end of the enclosing group behind it.

* `Extends`: what is left of the two texts once both have been read equally far.
* `Agrees`: a reader finds the same in both texts, or nothing in the text alone.
-/

namespace Crunch
namespace Pattern
namespace Parse

/-- What closes the group around a pattern and ties it to the end of the subject. -/
def closing : List Char := [')', '$']

/-- The text ends in what is a comment in verbose mode. -/
def Commented (cs : List Char) : Prop :=
  ∃ before comment, cs = before ++ '#' :: comment ∧ '\n' ∉ comment

/-- What is left of a text, and of the text with the closing behind it: the same with the closing
behind it again, or nothing of either after a comment has swallowed the closing. -/
inductive Extends (base : List Char) : List Char → List Char → Prop where
  | apart {cs} (h : cs <:+ base) : Extends base cs (cs ++ closing)
  | swallowed (h : Commented base) : Extends base [] []

/-- What a reader finds in a text and in its continuation: the same, or nothing in the text alone
and then something `late` in the continuation, or nothing at all. -/
inductive Agrees {α : Type} (late : α → List Char → Prop) (base : List Char) :
    Option (α × List Char) → Option (α × List Char) → Prop where
  | read {a r r'} (h : Extends base r r') : Agrees late base (some (a, r)) (some (a, r'))
  | late {a r'} (h : late a r') : Agrees late base none (some (a, r'))
  | failed : Agrees late base none none

/-- Three parts as two. -/
def paired {α β γ : Type} : α × β × γ → (α × β) × γ := fun (a, b, c) => ((a, b), c)

/-- Nothing is read beyond the text. -/
def never {α : Type} : α → List Char → Prop := fun _ _ => False

variable {base cs cs' r r' x x' : List Char} {v : Bool} {fl : Flags} {f f' n : Nat} {c : Char}

theorem Commented.of_suffix (h : Commented cs) (hs : cs <:+ base) : Commented base := by
  obtain ⟨b, c, rfl, hn⟩ := h
  obtain ⟨a, rfl⟩ := hs
  exact ⟨a ++ b, c, by simp, hn⟩

namespace Extends

theorem weaken (h : Extends cs r r') (hs : cs <:+ base) : Extends base r r' := by
  cases h with
  | apart h => exact .apart (h.trans hs)
  | swallowed h => exact .swallowed (h.of_suffix hs)

theorem refl (cs : List Char) : Extends cs cs (cs ++ closing) := .apart (List.suffix_refl cs)

/-- Behind one character of a text. -/
theorem tail (h : c :: cs <:+ base) : Extends base cs (cs ++ closing) :=
  .apart ((List.suffix_cons c cs).trans h)

theorem length_le (h : Extends base r r') :
    r.length ≤ base.length ∧ r'.length ≤ base.length + 2 := by
  cases h with
  | apart h =>
    have := h.length_le
    simp only [closing, List.length_append, List.length_cons, List.length_nil]
    omega
  | swallowed _ => exact ⟨Nat.zero_le _, Nat.zero_le _⟩

end Extends

namespace Agrees

variable {α β : Type} {late late' : α → List Char → Prop} {o e o' e' : Option (α × List Char)}

theorem weaken (h : Agrees late cs o e) (hs : cs <:+ base) : Agrees late base o e := by
  cases h with
  | read h => exact .read (h.weaken hs)
  | late h => exact .late h
  | failed => exact .failed

theorem mono (h : Agrees late base o e) (hl : ∀ a r, late a r → late' a r) :
    Agrees late' base o e := by
  cases h with
  | read h => exact .read h
  | late h => exact .late (hl _ _ h)
  | failed => exact .failed

theorem of_never (h : Agrees never base o e) : Agrees late base o e :=
  h.mono fun _ _ h => h.elim

theorem map {late' : β → List Char → Prop} (h : Agrees late base o e) (g : α → β)
    (hl : ∀ a r, late a r → late' (g a) r) :
    Agrees late' base (o.map fun (a, r) => (g a, r)) (e.map fun (a, r) => (g a, r)) := by
  cases h with
  | read h => exact .read h
  | late h => exact .late (hl _ _ h)
  | failed => exact .failed

theorem ite {p : Prop} [Decidable p] (h : p → Agrees late base o e)
    (h' : ¬p → Agrees late base o' e') :
    Agrees late base (if p then o else o') (if p then e else e') := by
  by_cases hp : p
  · simpa only [if_pos hp] using h hp
  · simpa only [if_neg hp] using h' hp

/-- A result that does not depend on the text behind. -/
theorem const (o : Option β) (g : β → α) (h : Extends base r r') :
    Agrees late base (o.map fun b => (g b, r)) (o.map fun b => (g b, r')) := by
  cases o with
  | none => exact .failed
  | some b => exact .read h

/-- A late result that does not depend on the text behind. -/
theorem late_const (o : Option β) (g : β → α) (h : ∀ b, late (g b) r) :
    Agrees late base none (o.map fun b => (g b, r)) := by
  cases o with
  | none => exact .failed
  | some b => exact .late (h b)

theorem length_le {a : α} (h : Agrees late base (some (a, r)) e) : r.length ≤ base.length := by
  cases h with
  | read h => exact h.length_le.1

end Agrees

/-! ## Blanks and comments -/

theorem dropComment_suffix (cs : List Char) : dropComment cs <:+ cs := by
  fun_induction dropComment cs with
  | case1 => exact List.suffix_refl _
  | case2 cs => exact List.suffix_cons _ _
  | case3 c cs _ ih => exact ih.trans (List.suffix_cons _ _)

theorem dropComment_eq_nil (h : '\n' ∉ cs) : dropComment cs = [] := by
  fun_induction dropComment cs with
  | case1 => rfl
  | case2 cs => exact absurd List.mem_cons_self h
  | case3 c cs _ ih => exact ih fun hm => h (List.mem_cons_of_mem _ hm)

theorem dropComment_append (h : '\n' ∈ cs) (behind : List Char) :
    dropComment (cs ++ behind) = dropComment cs ++ behind := by
  fun_induction dropComment cs with
  | case1 => exact absurd h List.not_mem_nil
  | case2 cs => rfl
  | case3 c cs hc ih =>
    have hcs : '\n' ∈ cs := (List.mem_cons.1 h).resolve_left fun heq => hc heq.symm
    rw [List.cons_append, dropComment, ih hcs]
    exact hc

theorem skip_suffix (v : Bool) (cs : List Char) : skip v cs <:+ cs := by
  fun_induction skip v cs with
  | case1 => exact List.suffix_refl _
  | case2 c cs _ => exact List.suffix_refl _
  | case3 c cs _ _ ih => exact ih.trans (List.suffix_cons _ _)
  | case4 cs _ _ ih => exact (ih.trans (dropComment_suffix cs)).trans (List.suffix_cons _ _)
  | case5 c cs _ _ _ => exact List.suffix_refl _

theorem length_skip_le (v : Bool) (cs : List Char) : (skip v cs).length ≤ cs.length :=
  (skip_suffix v cs).length_le

@[simp] theorem skip_nil (v : Bool) : skip v [] = [] := by rw [skip]

@[simp] theorem skip_closing (v : Bool) : skip v closing = closing := by
  cases v <;> rw [closing, skip] <;> decide +kernel

@[simp] theorem skip_dollar (v : Bool) : skip v ['$'] = ['$'] := by
  cases v <;> rw [skip] <;> decide +kernel

theorem skip_cons (hb : Text.isBlank c = false) (hc : c ≠ '#') : skip v (c :: cs) = c :: cs := by
  cases v with
  | false => rw [skip]; rfl
  | true => rw [skip, if_neg (by decide), if_neg (by simp [hb]), if_neg hc]

theorem skip_extends (v : Bool) (cs : List Char) :
    Extends cs (skip v cs) (skip v (cs ++ closing)) := by
  fun_induction skip v cs with
  | case1 => rw [List.nil_append, skip_closing]; exact .refl []
  | case2 c cs hv => rw [List.cons_append, skip, if_pos hv]; exact .refl _
  | case3 c cs hv hb ih =>
    rw [List.cons_append, skip, if_neg hv, if_pos hb]
    exact ih.weaken (List.suffix_cons _ _)
  | case4 cs hv hb ih =>
    rw [List.cons_append, skip, if_neg hv, if_neg hb, if_pos rfl]
    by_cases hn : '\n' ∈ cs
    · rw [dropComment_append hn]
      exact ih.weaken ((dropComment_suffix cs).trans (List.suffix_cons _ _))
    · -- a comment without an end takes the closing with it
      have hn' : '\n' ∉ cs ++ closing := by simp [closing, hn]
      rw [dropComment_eq_nil hn, dropComment_eq_nil hn', skip_nil]
      exact .swallowed ⟨[], cs, rfl, hn⟩
  | case5 c cs hv hb hc =>
    rw [List.cons_append, skip, if_neg hv, if_neg hb, if_neg hc]
    exact .refl _

theorem Extends.skip (h : Extends base cs cs') (v : Bool) :
    Extends base (skip v cs) (skip v cs') := by
  cases h with
  | apart h => exact (skip_extends v cs).weaken h
  | swallowed h => rw [skip_nil]; exact .swallowed h

/-! ## Digits and names -/

theorem hexFixed_agrees (h : Extends base cs cs') :
    Agrees never base (hexFixed v n cs) (hexFixed v n cs') := by
  induction n generalizing cs cs' with
  | zero => exact .read h
  | succ n ih =>
    rw [hexFixed, hexFixed]
    have h := h.skip v
    generalize skip v cs = x, skip v cs' = x' at h
    cases h with
    | swallowed _ => exact .failed
    | apart h =>
      cases x with
      | nil => exact .failed
      | cons c x => exact .ite (fun _ => (ih (.tail h)).map _ fun _ _ h => h) fun _ => .failed

/-- Characters of one kind up to a closing brace, without what the verbose mode skips. -/
def bracedBy (p : Char → Bool) (v : Bool) : Nat → List Char → Option (List Char × List Char)
  | 0, _ => none
  | f + 1, cs =>
    match skip v cs with
    | [] => none
    | c :: rest =>
      if c = '\x7d' then some ([], rest)
      else if p c then (bracedBy p v f rest).map fun (ds, r) => (c :: ds, r)
      else none

theorem hexBraced_eq (v : Bool) (f : Nat) (cs : List Char) :
    hexBraced v f cs = bracedBy isHexDigit v f cs := by
  induction f generalizing cs with
  | zero => rfl
  | succ f ih =>
    rw [hexBraced, bracedBy]
    generalize skip v cs = x
    cases x with
    | nil => rfl
    | cons c x =>
      by_cases hc : c = '\x7d'
      · subst hc; rfl
      · simp [hc, ih]

theorem braced_eq (v : Bool) (f : Nat) (cs : List Char) :
    braced v f cs = bracedBy (fun _ => true) v f cs := by
  induction f generalizing cs with
  | zero => rfl
  | succ f ih =>
    rw [braced, bracedBy]
    generalize skip v cs = x
    cases x with
    | nil => rfl
    | cons c x =>
      by_cases hc : c = '\x7d'
      · subst hc; rfl
      · simp [hc, ih]

/-- Braces are not closed by the end of a group. -/
theorem bracedBy_of_closing (p : Char → Bool) (h : skip v cs = closing) (f : Nat) :
    bracedBy p v f cs = none := by
  have hnil : ∀ f, bracedBy p v f [] = none := by
    intro f
    cases f with
    | zero => rfl
    | succ f => rw [bracedBy, skip_nil]
  have hdollar : ∀ f, bracedBy p v f ['$'] = none := by
    intro f
    cases f with
    | zero => rfl
    | succ f =>
      rw [bracedBy, skip_dollar]
      simp [hnil]
  cases f with
  | zero => rfl
  | succ f =>
    rw [bracedBy, h, closing]
    simp [hdollar]

theorem bracedBy_agrees (p : Char → Bool) (h : Extends base cs cs') (hf : cs.length < f)
    (hf' : cs'.length < f') : Agrees never base (bracedBy p v f cs) (bracedBy p v f' cs') := by
  induction f generalizing cs cs' f' with
  | zero => omega
  | succ f ih =>
    obtain ⟨f', rfl⟩ : ∃ k, f' = k + 1 := ⟨f' - 1, by omega⟩
    have h := h.skip v
    have hl := length_skip_le v cs
    have hl' := length_skip_le v cs'
    generalize hx : skip v cs = x, hx' : skip v cs' = x' at h hl hl'
    cases h with
    | swallowed _ => rw [bracedBy, bracedBy, hx, hx']; exact .failed
    | apart h =>
      cases x with
      | nil => rw [bracedBy, hx, bracedBy_of_closing p hx']; exact .failed
      | cons c x =>
        rw [bracedBy, bracedBy, hx, hx']
        simp only [List.cons_append, List.length_cons] at hl hl'
        refine .ite (fun _ => .read (.tail h)) fun _ => .ite (fun _ => ?_) fun _ => .failed
        exact (ih (.tail h) (by omega) (by omega)).map _ fun _ _ h => h

theorem hexEscape_agrees {digits : Nat} (h : Extends base cs cs') (hd : 0 < digits) :
    Agrees never base (hexEscape v digits cs) (hexEscape v digits cs') := by
  obtain ⟨digits, rfl⟩ : ∃ k, digits = k + 1 := ⟨digits - 1, by omega⟩
  rw [hexEscape, hexEscape]
  have h := h.skip v
  generalize skip v cs = x, skip v cs' = x' at h
  cases h with
  | swallowed _ => exact .failed
  | apart h =>
    cases x with
    | nil =>
      have hx : hexFixed v (digits + 1) closing = none := by rw [hexFixed, skip_closing]; rfl
      rw [closing] at hx
      simpa [closing, hx] using Agrees.failed
    | cons c x =>
      by_cases hc : c = '\x7b'
      · subst hc
        have hb := bracedBy_agrees isHexDigit (v := v) (.tail h) (Nat.lt_succ_self _)
          (Nat.lt_succ_self _)
        simp only [List.cons_append, hexBraced_eq]
        generalize bracedBy isHexDigit v (x.length + 1) x = o,
          bracedBy isHexDigit v ((x ++ closing).length + 1) (x ++ closing) = e at hb
        cases hb with
        | failed => exact .failed
        | late hl => exact hl.elim
        | read hr => exact .ite (fun _ => .failed) fun _ => .const _ _ (hr.skip v)
      · have hx := hexFixed_agrees (n := digits + 1) (v := v) (.apart h)
        simp only [List.cons_append] at hx ⊢
        generalize hexFixed v (digits + 1) (c :: x) = o,
          hexFixed v (digits + 1) (c :: (x ++ closing)) = e at hx
        cases hx with
        | failed => exact .failed
        | late hl => exact hl.elim
        | read hr => exact .const _ _ (hr.skip v)

/-- The set of a property as an atom. -/
def propertyAtom (fl : Flags) (negated : Bool) :
    Option (CharSet × List Char) → Option (Atom × List Char)
  | some (s, r) =>
    if !fl.unicode then none
    else some (.set (if negated then .complement (fold fl s) else fold fl s), r)
  | none => none

theorem propertyAtom_agrees {negated : Bool} {o e : Option (CharSet × List Char)}
    (h : Agrees never base o e) :
    Agrees never base (propertyAtom fl negated o) (propertyAtom fl negated e) := by
  cases h with
  | failed => exact .failed
  | late hl => exact hl.elim
  | read hr => exact .ite (fun _ => .failed) fun _ => .read hr

theorem propertyEscape_agrees {negated : Bool} (h : Extends base cs cs') :
    Agrees never base (propertyEscape fl negated cs) (propertyEscape fl negated cs') := by
  rw [propertyEscape, propertyEscape]
  apply propertyAtom_agrees
  have h := h.skip fl.verbose
  generalize skip fl.verbose cs = x, skip fl.verbose cs' = x' at h
  cases h with
  | swallowed _ => exact .failed
  | apart h =>
    cases x with
    | nil =>
      have hp : CharSet.ofPropertyName? [')'] = none := by decide +kernel
      show Agrees never base none
        ((CharSet.ofPropertyName? [')']).map fun s => (s, skip fl.verbose ['$']))
      rw [hp]
      exact .failed
    | cons c x =>
      by_cases hc : c = '\x7b'
      · subst hc
        have hb := bracedBy_agrees (fun _ => true) (v := fl.verbose) (.tail h) (Nat.lt_succ_self _)
          (Nat.lt_succ_self _)
        simp only [List.cons_append, braced_eq]
        generalize bracedBy (fun _ => true) fl.verbose (x.length + 1) x = o,
          bracedBy (fun _ => true) fl.verbose ((x ++ closing).length + 1) (x ++ closing) = e at hb
        cases hb with
        | failed => exact .failed
        | late hl => exact hl.elim
        | read hr => exact .const _ _ hr
      by_cases hc : c = '\\'
      · subst hc
        exact .failed
      · simp only [List.cons_append]
        exact .const _ _ ((Extends.tail h).skip _)

/-- The part of a text before a separator that the closing has none of. -/
theorem takeWhile_closing {s : Char} (hs : s ∉ closing) (cs : List Char) :
    (∃ a b, cs = a ++ s :: b ∧ cs.takeWhile (· != s) = a ∧
      (cs ++ closing).takeWhile (· != s) = a) ∨
    (cs.takeWhile (· != s) = cs ∧ (cs ++ closing).takeWhile (· != s) = cs ++ closing) := by
  have whole : ∀ a : List Char, s ∉ a → ∀ b, (a ++ b).takeWhile (· != s) =
      a ++ b.takeWhile (· != s) := by
    intro a ha b
    apply List.takeWhile_append_of_pos
    intro c hc
    exact bne_iff_ne.2 fun heq => ha (heq ▸ hc)
  by_cases hm : s ∈ cs
  · obtain ⟨a, b, rfl, ha⟩ := List.eq_append_cons_of_mem hm
    refine .inl ⟨a, b, rfl, ?_, ?_⟩
    · simp [whole a ha]
    · simp [whole a ha]
  · have h := whole cs hm
    have hc := whole closing hs
    refine .inr ⟨by simpa using h [], ?_⟩
    rw [h, show closing.takeWhile (· != s) = closing by simpa using hc []]

/-- Characters of one kind at the start of a text, with what the verbose mode skips behind each, and
the text after them. -/
def spanned (p : Char → Bool) (v : Bool) : Nat → List Char → List Char × List Char
  | 0, cs => ([], cs)
  | _ + 1, [] => ([], [])
  | f + 1, c :: cs =>
    if p c then
      let (ds, r) := spanned p v f (skip v cs)
      (c :: ds, r)
    else ([], c :: cs)

theorem spanned_extends {p : Char → Bool} (hp : p ')' = false) (h : Extends base cs cs')
    (hf : cs.length < f) (hf' : cs'.length < f') :
    ∃ ds r r', spanned p v f cs = (ds, r) ∧ spanned p v f' cs' = (ds, r') ∧ Extends base r r' := by
  induction f generalizing cs cs' f' with
  | zero => omega
  | succ f ih =>
    obtain ⟨f', rfl⟩ : ∃ k, f' = k + 1 := ⟨f' - 1, by omega⟩
    cases h with
    | swallowed hb => exact ⟨[], [], [], rfl, rfl, .swallowed hb⟩
    | apart h =>
      cases cs with
      | nil => exact ⟨[], [], closing, rfl, by simp [spanned, closing, hp], .apart h⟩
      | cons c cs =>
        rw [List.cons_append, spanned, spanned]
        by_cases hc : p c = true
        · simp only [List.cons_append, List.length_cons] at hf hf'
          have hl := length_skip_le v cs
          have hl' := length_skip_le v (cs ++ closing)
          have hlt' : (skip v (cs ++ closing)).length < f' := by omega
          obtain ⟨ds, r, r', ho, he, hr⟩ := ih ((Extends.tail h).skip v) (by omega) hlt'
          simp only [if_pos hc, ho, he]
          exact ⟨c :: ds, r, r', rfl, rfl, hr⟩
        · simp only [if_neg hc]
          exact ⟨[], c :: cs, c :: (cs ++ closing), rfl, rfl, .apart h⟩

/-! ## Escapes -/

theorem boundaryName_eq (v : Bool) (f : Nat) (cs : List Char) :
    boundaryName v f cs = spanned (fun c => c.isAlpha || c == '-') v f cs := by
  induction f generalizing cs with
  | zero => rfl
  | succ f ih => cases cs with
    | nil => rfl
    | cons c cs => rw [boundaryName, spanned, ih]

theorem boundaryName_extends (h : Extends base cs cs') (hf : cs.length < f)
    (hf' : cs'.length < f') :
    ∃ name r r', boundaryName v f cs = (name, r) ∧ boundaryName v f' cs' = (name, r') ∧
      Extends base r r' := by
  simp only [boundaryName_eq]
  exact spanned_extends (by decide) h hf hf'

/-- What an escape can make of the closing: its parenthesis as a character, or a word boundary
before a brace that the closing stands in. -/
inductive LateAtom (v : Bool) : Atom → List Char → Prop where
  | parenthesis : LateAtom v (.literal ')' false) ['$']
  | brace {tail : List Char} (h : skip v tail = closing) :
    LateAtom v (.assertion .wordBoundary) ('\x7b' :: tail)

theorem boundaryEscape_of_ne (hc : c ≠ '\x7b') :
    boundaryEscape v (c :: cs) = some (.assertion .wordBoundary, c :: cs) := by
  unfold boundaryEscape
  split
  next heq => exact absurd (List.cons.inj heq).1 hc
  next => rfl

theorem boundaryEscape_agrees (h : Extends base cs cs') :
    Agrees (LateAtom v) base (boundaryEscape v cs) (boundaryEscape v cs') := by
  cases h with
  | swallowed hb => exact .read (.swallowed hb)
  | apart h =>
    cases cs with
    | nil => exact .read (.apart h)
    | cons c cs =>
      by_cases hc : c = '\x7b'
      · subst hc
        rw [List.cons_append, boundaryEscape, boundaryEscape]
        have hs := (Extends.tail h).skip v
        generalize hx : skip v cs = x, hx' : skip v (cs ++ closing) = x' at hs
        cases hs with
        | swallowed _ => exact .failed
        | apart hs =>
          cases x with
          | nil => exact .late (.brace hx')
          | cons d x =>
            simp only [List.cons_append]
            refine .ite (fun _ => ?_) fun _ => .read (.apart h)
            have hlt : (d :: x).length < x.length + 2 := by simp
            have hlt' : (d :: x ++ closing).length < (x ++ closing).length + 2 := by simp
            obtain ⟨name, r, r', ho, he, hr⟩ := boundaryName_extends (v := v) (.apart hs) hlt hlt'
            simp only [List.cons_append] at he
            simp only [ho, he]
            cases hr with
            | swallowed _ => exact .failed
            | apart hr =>
              cases r with
              | nil => exact .failed
              | cons d r =>
                by_cases hd : d = '\x7d'
                · subst hd
                  have hr := Extends.tail hr
                  exact .ite (fun _ => .read hr) fun _ => .ite (fun _ => .read hr) fun _ =>
                    .ite (fun _ => .read hr) fun _ => .ite (fun _ => .read hr) fun _ => .failed
                · simpa [hd] using Agrees.failed
      · rw [List.cons_append, boundaryEscape_of_ne hc, boundaryEscape_of_ne hc]
        exact .read (.apart h)

theorem escape_agrees (fl : Flags) (h : cs <:+ base) :
    Agrees (LateAtom fl.verbose) base (escape fl cs) (escape fl (cs ++ closing)) := by
  cases cs with
  | nil => exact .late .parenthesis
  | cons c cs =>
    have ht := Extends.tail h
    simp only [List.cons_append, escape]
    refine .ite (fun _ => .of_never (hexEscape_agrees ht (by decide))) fun _ => ?_
    refine .ite (fun _ => .of_never (hexEscape_agrees ht (by decide))) fun _ => ?_
    refine .ite (fun _ => .of_never (hexEscape_agrees ht (by decide))) fun _ => ?_
    refine .ite (fun _ => .of_never (propertyEscape_agrees ht)) fun _ => ?_
    refine .ite (fun _ => .const _ _ ht) fun _ => ?_
    refine .ite (fun _ => .const _ _ ht) fun _ => ?_
    refine .ite (fun _ => .const _ _ ht) fun _ => ?_
    iterate 9 refine .ite (fun _ => .read ht) fun _ => ?_
    refine .ite (fun _ => boundaryEscape_agrees ht) fun _ => ?_
    iterate 3 refine .ite (fun _ => .read ht) fun _ => ?_
    exact .failed

end Parse
end Pattern
end Crunch
