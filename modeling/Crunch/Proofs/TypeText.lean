import Crunch.Eval
import Crunch.Proofs.Run
import Crunch.Proofs.Spelling

/-!
# Crunch.Proofs.TypeText

The text of a type determines it.

* `Ty.Proper`: types that carry fields exactly if they are tuple types, and a name exactly if they are object
  types. The name is a word, but none of the words for scalars.
* `Ty.word`, `Ty.tail`: the text of a type is a word with brackets after it.
* `Ty.Stops`: what may follow the text of a type inside the text of another one.
* `Ty.text_append_inj`: a text that starts with the text of a type does so in one way only.
* `Ty.text_determines`: what this means for types and for scripts that compare the texts of types.
-/

namespace Crunch

/-- The words for kinds differ. -/
theorem Kind.text_inj {k k' : Kind} (h : k.text = k'.text) : k = k' := by
  cases k <;> cases k' <;> first | rfl | simp [Kind.text] at h

theorem Kind.isWord_text (k : Kind) : Token.IsWord k.text := by
  cases k <;> exact ⟨_, _, rfl, by decide, List.all_eq_true.mp rfl⟩

namespace Ty

/-- Types with fields exactly if they are tuple types, the fields being such types, and with a name exactly if they
are object types. No object type is named like a scalar. -/
inductive Proper : Ty → Prop where
  | plain {k : Kind} (l : Nat) : k ≠ .tuple → k ≠ .object → Proper (.plain k l)
  | row (l : Nat) {fields : List Ty} : (∀ t ∈ fields, Proper t) → Proper (.row .tuple l fields)
  | named (l : Nat) {name : String} : Token.IsWord name → (∀ k : Kind, k ≠ .tuple → k ≠ .object → k.text ≠ name) →
      Proper (.named .object l name)

/-- What a text of a type starts with. -/
def word : Ty → String
  | .plain k _ => k.text
  | .row _ _ _ => Kind.tuple.text
  | .named _ _ name => name

/-- What stands after the word: the fields of a tuple, and a pair of brackets for each level. -/
def tail : Ty → List Char
  | .plain _ l => (brackets l).toList
  | .row _ l fields => '(' :: ((text.texts fields).toList ++ ')' :: (brackets l).toList)
  | .named _ l _ => (brackets l).toList

/-- What may stand after a type: nothing, the next field of a tuple, or the end of its fields. -/
def Stops (cs : List Char) : Prop := ∀ c ∈ cs.head?, c = ',' ∨ c = ')'

variable {a b t : Ty} {fs gs : List Ty} {cs ds vs ws : List Char} {l m : Nat}

/-! ## A word and what follows -/

theorem toList_text (t : Ty) : t.text.toList = t.word.toList ++ t.tail := by
  cases t with
  | plain k l => simp [text, word, tail]
  | row k l fields => simp [text, word, tail, Kind.text]
  | named k l name => simp [text, word, tail]

theorem isWord_word (h : t.Proper) : Token.IsWord t.word := by
  cases h with
  | plain l _ _ => exact Kind.isWord_text _
  | row l _ => exact Kind.isWord_text _
  | named l hname _ => exact hname

@[simp] theorem toList_brackets_zero : (brackets 0).toList = [] := rfl

@[simp] theorem toList_brackets_succ (l : Nat) : (brackets (l + 1)).toList = '[' :: ']' :: (brackets l).toList := by
  simp [brackets, List.replicate_succ]

theorem stops_nil : Stops [] := nofun

theorem stops_comma : Stops (',' :: cs) := by
  rintro c ⟨⟩
  exact .inl rfl

theorem stops_parenthesis : Stops (')' :: cs) := by
  rintro c ⟨⟩
  exact .inr rfl

/-- Brackets and what may follow a type start with one of three characters. -/
theorem head_brackets_append (h : Stops cs) : ∀ c ∈ ((brackets l).toList ++ cs).head?, c = '[' ∨ c = ',' ∨ c = ')' := by
  cases l with
  | zero => exact fun c hc => .inr (h c hc)
  | succ l =>
    rw [toList_brackets_succ]
    rintro c ⟨⟩
    exact .inl rfl

theorem ne_brackets_append (h : Stops cs) : '(' :: ds ≠ (brackets l).toList ++ cs := by
  intro heq
  have hhead := head_brackets_append (l := l) h
  rw [← heq] at hhead
  revert hhead
  simp

/-- After its word, a type goes on with a character that is not part of a word. -/
theorem not_isNameChar_tail (h : Stops cs) : ∀ c ∈ (t.tail ++ cs).head?, Scan.isNameChar c = false := by
  have hbrackets : ∀ l, ∀ c ∈ ((brackets l).toList ++ cs).head?, Scan.isNameChar c = false := by
    intro l c hc
    rcases head_brackets_append h c hc with rfl | rfl | rfl <;> rfl
  cases t with
  | plain k l => exact hbrackets l
  | row k l fields =>
    rintro c ⟨⟩
    rfl
  | named k l name => exact hbrackets l

theorem isNameChar_of_isWord {s : String} (h : Token.IsWord s) : ∀ c ∈ s.toList, Scan.isNameChar c = true := by
  obtain ⟨c, cs, hs, hc, hcs⟩ := h
  rw [hs]
  refine List.forall_mem_cons.mpr ⟨?_, hcs⟩
  simp only [Scan.isNameStart, Scan.isNameChar, Char.isAlphanum, Bool.or_eq_true] at hc ⊢
  exact hc.imp .inl id

theorem takeWhile_word (hws : ∀ c ∈ ws, Scan.isNameChar c = true) (hcs : ∀ c ∈ cs.head?, Scan.isNameChar c = false) :
    (ws ++ cs).takeWhile Scan.isNameChar = ws := by
  rw [List.takeWhile_append_of_pos hws]
  cases cs with
  | nil => simp
  | cons c cs => rw [List.takeWhile_cons, if_neg (Bool.eq_false_iff.mp (hcs c rfl)), List.append_nil]

/-- The word of a type and what follows are known from its text. -/
theorem word_tail_inj (ha : a.Proper) (hb : b.Proper) (hcs : Stops cs) (hds : Stops ds)
    (h : a.text.toList ++ cs = b.text.toList ++ ds) : a.word = b.word ∧ a.tail ++ cs = b.tail ++ ds := by
  rw [toList_text, toList_text, List.append_assoc, List.append_assoc] at h
  have hwords := congrArg (List.takeWhile Scan.isNameChar) h
  rw [takeWhile_word (isNameChar_of_isWord (isWord_word ha)) (not_isNameChar_tail hcs),
    takeWhile_word (isNameChar_of_isWord (isWord_word hb)) (not_isNameChar_tail hds)] at hwords
  rw [hwords] at h
  exact ⟨String.toList_injective hwords, List.append_cancel_left h⟩

theorem brackets_append_inj (hcs : Stops cs) (hds : Stops ds)
    (h : (brackets l).toList ++ cs = (brackets m).toList ++ ds) : l = m ∧ cs = ds := by
  induction l generalizing m with
  | zero =>
    cases m with
    | zero => exact ⟨rfl, h⟩
    | succ m =>
      have hhead : cs.head? = some '[' := by simpa using congrArg List.head? h
      have := hcs '[' hhead
      simp at this
  | succ l ih =>
    cases m with
    | zero =>
      have hhead : ds.head? = some '[' := by simpa using (congrArg List.head? h).symm
      have := hds '[' hhead
      simp at this
    | succ m =>
      simp only [toList_brackets_succ, List.cons_append, List.cons.injEq, true_and] at h
      obtain ⟨rfl, hrest⟩ := ih h
      exact ⟨rfl, hrest⟩

/-! ## Types inside of types -/

/-- The text of a type can be split off in one way only, whatever follows. -/
def Splits (a : Ty) : Prop :=
  ∀ {b : Ty} {cs ds : List Char}, b.Proper → Stops cs → Stops ds → a.text.toList ++ cs = b.text.toList ++ ds →
    a = b ∧ cs = ds

theorem ne_parenthesis_text (h : t.Proper) : ')' :: cs ≠ t.text.toList ++ ds := by
  obtain ⟨c, ws, hword, hc, -⟩ := isWord_word h
  rw [toList_text, hword]
  intro heq
  obtain rfl := (List.cons.inj heq).1
  cases hc

theorem toList_texts_cons_cons (t u : Ty) (ts : List Ty) :
    (text.texts (t :: u :: ts)).toList = t.text.toList ++ ',' :: ' ' :: (text.texts (u :: ts)).toList := by
  simp [text.texts]

/-- Fields that are split off one by one are known from the text of a tuple type. -/
theorem texts_append_inj (hf : ∀ t ∈ fs, t.Splits) (hproper : ∀ t ∈ fs, t.Proper) (hg : ∀ t ∈ gs, t.Proper)
    (h : (text.texts fs).toList ++ ')' :: cs = (text.texts gs).toList ++ ')' :: ds) : fs = gs ∧ cs = ds := by
  induction fs generalizing gs with
  | nil =>
    cases gs with
    | nil => exact ⟨rfl, (List.cons.inj h).2⟩
    | cons g gs =>
      have hfirst := hg g List.mem_cons_self
      cases gs with
      | nil => exact absurd h (ne_parenthesis_text hfirst)
      | cons g' gs =>
        rw [toList_texts_cons_cons, List.append_assoc] at h
        exact absurd h (ne_parenthesis_text hfirst)
  | cons f fs ih =>
    obtain ⟨hsplits, hfs⟩ := List.forall_mem_cons.mp hf
    obtain ⟨hfirst, hproper⟩ := List.forall_mem_cons.mp hproper
    cases gs with
    | nil =>
      cases fs with
      | nil => exact absurd h.symm (ne_parenthesis_text hfirst)
      | cons f' fs =>
        rw [toList_texts_cons_cons, List.append_assoc] at h
        exact absurd h.symm (ne_parenthesis_text hfirst)
    | cons g gs =>
      obtain ⟨hg', hgs⟩ := List.forall_mem_cons.mp hg
      -- The comma or the parenthesis after the first field tells whether there are more.
      cases fs with
      | nil =>
        cases gs with
        | nil =>
          obtain ⟨rfl, hrest⟩ := hsplits hg' stops_parenthesis stops_parenthesis h
          exact ⟨rfl, (List.cons.inj hrest).2⟩
        | cons g' gs =>
          rw [toList_texts_cons_cons, List.append_assoc] at h
          obtain ⟨-, hrest⟩ := hsplits hg' stops_parenthesis stops_comma h
          simp at hrest
      | cons f' fs =>
        cases gs with
        | nil =>
          rw [toList_texts_cons_cons, List.append_assoc] at h
          obtain ⟨-, hrest⟩ := hsplits hg' stops_comma stops_parenthesis h
          simp at hrest
        | cons g' gs =>
          rw [toList_texts_cons_cons, toList_texts_cons_cons, List.append_assoc, List.append_assoc] at h
          obtain ⟨rfl, hrest⟩ := hsplits hg' stops_comma stops_comma h
          obtain ⟨heq, hcs⟩ := ih hfs hproper hgs (List.cons.inj (List.cons.inj hrest).2).2
          exact ⟨congrArg _ heq, hcs⟩

/-- A text that starts with the text of a type does so in one way only. -/
theorem text_append_inj (ha : a.Proper) : a.Splits := by
  induction ha with
  | @plain k l ht ho =>
    intro b cs ds hb hcs hds h
    obtain ⟨hword, htail⟩ := word_tail_inj (.plain l ht ho) hb hcs hds h
    cases hb with
    | plain m _ _ =>
      obtain ⟨rfl, hrest⟩ := brackets_append_inj hcs hds htail
      exact ⟨congrArg (Ty.plain · l) (Kind.text_inj hword), hrest⟩
    | row m _ =>
      have hkind : k = .tuple := Kind.text_inj hword
      exact absurd hkind ht
    | named m _ hname => exact absurd hword (hname k ht ho)
  | @row l fields hfields ih =>
    intro b cs ds hb hcs hds h
    obtain ⟨hword, htail⟩ := word_tail_inj (.row l hfields) hb hcs hds h
    cases hb with
    | @plain k m ht _ =>
      have hkind : .tuple = k := Kind.text_inj hword
      exact absurd hkind.symm ht
    | @row m fields' hfields' =>
      simp only [tail, List.cons_append, List.append_assoc, List.cons.injEq, true_and] at htail
      obtain ⟨rfl, hafter⟩ := texts_append_inj ih hfields hfields' htail
      obtain ⟨rfl, hrest⟩ := brackets_append_inj hcs hds hafter
      exact ⟨rfl, hrest⟩
    | named m _ _ => exact absurd htail (ne_brackets_append hds)
  | @named l name hword' hname =>
    intro b cs ds hb hcs hds h
    obtain ⟨hword, htail⟩ := word_tail_inj (.named l hword' hname) hb hcs hds h
    cases hb with
    | plain m ht ho => exact absurd hword.symm (hname _ ht ho)
    | row m _ => exact absurd htail.symm (ne_brackets_append hcs)
    | named m _ _ =>
      obtain ⟨rfl, hrest⟩ := brackets_append_inj hcs hds htail
      exact ⟨congrArg (Ty.named .object l) hword, hrest⟩

theorem text_inj (ha : a.Proper) (hb : b.Proper) : a.text = b.text ↔ a = b :=
  ⟨fun h => (text_append_inj ha hb stops_nil stops_nil (congrArg (·.toList ++ []) h)).1, fun h => h ▸ rfl⟩

end Ty

/-! ## Scripts -/

theorem Builtin.call_typeof (line : Nat) (a : Argument) :
    Builtin.typeof.call line [a] = pure (.literal a.value.type.text) := by
  have hany : (Builtin.typeof.domain 0).admits a.value.type = true := Bool.or_true _
  have hfit : Builtin.typeof.misfit? [a.value.type] = none := by simp [misfit?, hany]
  simp only [call, List.map_cons, List.map_nil, hfit]
  rfl

theorem Run.binary_equal_literals (line : Nat) (x y : String) :
    Run.binary line .equal (.literal x) (.literal y) = pure (.boolean (x == y)) := by
  rfl

/-- Types with equal texts are equal. So a script that compares the texts of the types of two values compares the
types. -/
theorem Ty.text_determines {a b : Ty} (ha : a.Proper) (hb : b.Proper) :
    (a.text = b.text → a = b) ∧
      ∀ (line : Nat) (x y : Argument) (s : State), x.value.type = a → y.value.type = b →
        (do let t ← Builtin.typeof.call line [x]
            let u ← Builtin.typeof.call line [y]
            Run.binary line .equal t u : Run Value) s = .ok (.boolean (decide (a = b))) s := by
  refine ⟨(Ty.text_inj ha hb).mp, ?_⟩
  rintro line x y s rfl rfl
  rw [Builtin.call_typeof, Builtin.call_typeof, pure_bind, pure_bind, Run.binary_equal_literals]
  have hsame : (x.value.type.text == y.value.type.text) = decide (x.value.type = y.value.type) :=
    (beq_eq_decide _ _).trans (decide_eq_decide.mpr (Ty.text_inj ha hb))
  rw [hsame]
  rfl

/-- Brackets in two places inside of a tuple type, with an object type of the name `tuple`. -/
theorem Ty.text_determines_nested :
    let a : Ty := .row .tuple 1 [integer, .row .tuple 1 [.named .object 0 "tuple"]]
    let b : Ty := .row .tuple 1 [integer, .row .tuple 0 [.named .object 1 "tuple"]]
    a.Proper ∧ b.Proper ∧ a.text ≠ b.text ∧
      ∀ (line : Nat) (s : State),
        (do let t ← Builtin.typeof.call line [⟨.null a, none⟩]
            let u ← Builtin.typeof.call line [⟨.null b, none⟩]
            Run.binary line .equal t u : Run Value) s = .ok (.boolean false) s := by
  intro a b
  have hname : Token.IsWord "tuple" := Kind.isWord_text .tuple
  have hfree : ∀ k : Kind, k ≠ .tuple → k ≠ .object → k.text ≠ "tuple" := fun k hk _ h => hk (Kind.text_inj h)
  have hinteger : integer.Proper := .plain 0 (by decide) (by decide)
  have hobject : ∀ l, (Ty.named .object l "tuple").Proper := fun l => .named l hname hfree
  have hrow : ∀ l m, (Ty.row .tuple 1 [integer, .row .tuple l [.named .object m "tuple"]]).Proper := fun l m =>
    .row 1 (List.forall_mem_cons.mpr ⟨hinteger,
      List.forall_mem_singleton.mpr (.row l (List.forall_mem_singleton.mpr (hobject m)))⟩)
  obtain ⟨htext, hscript⟩ := Ty.text_determines (hrow 1 0) (hrow 0 1)
  have hne : a ≠ b := by decide
  refine ⟨hrow 1 0, hrow 0 1, fun h => hne (htext h), fun line s => ?_⟩
  have hrun := hscript line ⟨.null a, none⟩ ⟨.null b, none⟩ s rfl rfl
  rwa [decide_eq_false hne] at hrun

end Crunch
