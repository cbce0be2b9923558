import Crunch.Program.Parse

/-!
# Crunch.Proofs.Grammar

The grammar of scripts, as relations between tokens and trees.

* `Grammar.Expression l ts e`: the tokens are the expression, whose operators have level `l` or a
  tighter one. The levels are those of `BinaryOp.level` and `UnaryOp.level`: 3 is `not`, 11 the signs,
  12 the power. Level 13 has no operator outside of brackets.
* `Grammar.Sentence`, `Grammar.Sequence`: the same for a statement, and for statements with
  separators between them.
* `Grammar.Breaks`: the places where a line may end. They are after an operator between operands,
  inside the brackets of a group or of a list, around the commas of a list, and in front of `else` and
  `catch`. Between statements and next to the braces of a block stand `Grammar.Separators`.

A rule for a node of the tree names every token that belongs to the node, with its line where the
node has it. All other tokens are line ends, semicolons, and the parentheses of groups.
-/

namespace Crunch
namespace Grammar

open Parse

/-- Line ends only. -/
def Breaks (ts : List Placed) : Prop := ∀ p ∈ ts, p.1 = .newLine

/-- A token that stands between statements. -/
def isSeparator : Token → Bool
  | .newLine | .mark .semicolon => true
  | _ => false

/-- Line ends and semicolons only. -/
def Separators (ts : List Placed) : Prop := ∀ p ∈ ts, isSeparator p.1 = true

/-- What is called on a receiver. -/
inductive Method : List Placed → Member → Prop where
  | named {s : String} {l : Nat} : Method [(.identifier s, l)] (.named s)
  | setField {n : Int64} {l l' l'' : Nat} : 0 < n.toInt →
      Method [(.identifier "set", l), (.mark .at, l'), (.integer n, l'')] (.setField n.toInt.toNat)

mutual

/-- Expressions by the level of their operators. -/
inductive Expression : Nat → List Placed → Expr → Prop where
  /-- Operands of the next level with the operators of this one between them. -/
  | chain {l : Nat} {ts us : List Placed} {a e : Expr} : l < 11 → l ≠ 3 → Expression (l + 1) ts a →
      Further l a us e → Expression l (ts ++ us) e
  | not {ts : List Placed} {e : Expr} {line : Nat} : Expression 3 ts e →
      Expression 3 ((.keyword .not, line) :: ts) (.unary line .not e)
  | plain {ts : List Placed} {e : Expr} : Expression 4 ts e → Expression 3 ts e
  | sign {t : Token} {op : UnaryOp} {ts : List Placed} {e : Expr} {line : Nat} : sign? t = some op →
      Expression 11 ts e → Expression 11 ((t, line) :: ts) (.unary line op e)
  | unsigned {ts : List Placed} {e : Expr} : Expression 12 ts e → Expression 11 ts e
  /-- The exponent may have a sign. -/
  | power {ts n us : List Placed} {a b : Expr} {line : Nat} : Expression 13 ts a → Breaks n →
      Expression 11 us b → Expression 12 (ts ++ (.mark .starStar, line) :: (n ++ us)) (.binary line .power a b)
  | operand {ts : List Placed} {e : Expr} : Expression 13 ts e → Expression 12 ts e
  | postfixed {ts us : List Placed} {a e : Expr} : Primary ts a → Postfixes a us e → Expression 13 (ts ++ us) e

/-- Operators of one level with their right operands, which group to the left: after the expression
`a` they make the expression `e`. -/
inductive Further : Nat → Expr → List Placed → Expr → Prop where
  | done {l : Nat} {a : Expr} : Further l a [] a
  | step {l : Nat} {t : Token} {op : BinaryOp} {n ts us : List Placed} {a b e : Expr} {line : Nat} :
      operator? t = some op → op.level = l → Breaks n → Expression (l + 1) ts b →
      Further l (.binary line op a b) us e → Further l a ((t, line) :: (n ++ ts ++ us)) e

/-- Constants, names, calls, groups and collections. A group is no node of its own. -/
inductive Primary : List Placed → Expr → Prop where
  | constant {t : Token} {c : Constant} {line : Nat} : constant? t = some c → Primary [(t, line)] (.constant line c)
  | var {s : String} {line : Nat} : Primary [(.identifier s, line)] (.var line s)
  | call {s : String} {ts : List Placed} {es : List Expr} {line l : Nat} : Items .rParen ts es →
      Primary ((.identifier s, line) :: (.mark .lParen, l) :: ts) (.call line s es)
  | group {n ts m : List Placed} {e : Expr} {l l' : Nat} : Breaks n → Expression 0 ts e → Breaks m →
      Primary ((.mark .lParen, l) :: (n ++ ts ++ m ++ [(.mark .rParen, l')])) e
  | collection {ts : List Placed} {es : List Expr} {line : Nat} : Items .rBracket ts es →
      Primary ((.mark .lBracket, line) :: ts) (.collection line es)

/-- Indices, fields and member calls: after the expression `a` they make the expression `e`. -/
inductive Postfixes : Expr → List Placed → Expr → Prop where
  | done {a : Expr} : Postfixes a [] a
  | index {ts us : List Placed} {a i e : Expr} {line l : Nat} : Expression 0 ts i →
      Postfixes (.index line a i) us e →
      Postfixes a ((.mark .lBracket, line) :: (ts ++ (.mark .rBracket, l) :: us)) e
  | field {n : Int64} {us : List Placed} {a e : Expr} {line l : Nat} : 0 < n.toInt →
      Postfixes (.field line a n.toInt.toNat) us e → Postfixes a ((.mark .at, line) :: (.integer n, l) :: us) e
  | member {m : Member} {ms ts us : List Placed} {a e : Expr} {es : List Expr} {line l : Nat} : Method ms m →
      Items .rParen ts es → Postfixes (.member line a m es) us e →
      Postfixes a ((.mark .dot, line) :: (ms ++ (.mark .lParen, l) :: (ts ++ us))) e

/-- The elements of a list and its closing bracket. The last element has no comma after it. -/
inductive Items : Mark → List Placed → List Expr → Prop where
  | none {c : Mark} {n : List Placed} {l : Nat} : Breaks n → Items c (n ++ [(.mark c, l)]) []
  | last {c : Mark} {n ts m : List Placed} {e : Expr} {l : Nat} : Breaks n → Expression 0 ts e → Breaks m →
      Items c (n ++ ts ++ m ++ [(.mark c, l)]) [e]
  | more {c : Mark} {n ts m us : List Placed} {e e' : Expr} {es : List Expr} {l : Nat} : Breaks n →
      Expression 0 ts e → Breaks m → Items c us (e' :: es) →
      Items c (n ++ ts ++ m ++ (.mark .comma, l) :: us) (e :: e' :: es)

end

/-- What a `for` runs over. -/
inductive Range : List Placed → Source → Prop where
  | elements {ts : List Placed} {e : Expr} : Expression 0 ts e → Range ts (.elements e)
  | exclusive {ts us : List Placed} {a b : Expr} {l : Nat} : Expression 0 ts a → Expression 0 us b →
      Range (ts ++ (.mark .dotDot, l) :: us) (.range a b false)
  | inclusive {ts us : List Placed} {a b : Expr} {l : Nat} : Expression 0 ts a → Expression 0 us b →
      Range (ts ++ (.mark .dotDotEq, l) :: us) (.range a b true)

mutual

/-- One statement. -/
inductive Sentence : List Placed → Statement → Prop where
  | expression {t : Token} {ts : List Placed} {e : Expr} {line : Nat} : Expression 0 ((t, line) :: ts) e →
      Sentence ((t, line) :: ts) (.expression line e)
  | declare {s : String} {ts : List Placed} {e : Expr} {line l l' : Nat} : isReserved s = false →
      Expression 0 ts e →
      Sentence ((.keyword .let, line) :: (.identifier s, l) :: (.mark .equals, l') :: ts) (.declare line s e)
  | assign {s : String} {ts : List Placed} {e : Expr} {line l : Nat} : isReserved s = false →
      Expression 0 ts e → Sentence ((.identifier s, l) :: (.mark .equals, line) :: ts) (.assign line s e)
  | compound {s : String} {t : Token} {op : BinaryOp} {ts : List Placed} {e : Expr} {line l : Nat} :
      assignment? t = some (some op) → isReserved s = false → Expression 0 ts e →
      Sentence ((.identifier s, l) :: (t, line) :: ts) (.compound line s op e)
  | choice {ts us vs : List Placed} {c : Expr} {body : List Statement} {bs : List (Expr × List Statement)}
      {otherwise : Option (List Statement)} {line : Nat} : Expression 0 ts c → Block us body →
      Branches vs bs otherwise →
      Sentence ((.keyword .if, line) :: (ts ++ us ++ vs)) (.choice line ((c, body) :: bs) otherwise)
  | loop {ts us : List Placed} {c : Expr} {body : List Statement} {line : Nat} : Expression 0 ts c →
      Block us body → Sentence ((.keyword .while, line) :: (ts ++ us)) (.loop line c body)
  | each {s : String} {ts us : List Placed} {src : Source} {body : List Statement} {line l l' : Nat} :
      isReserved s = false → Range ts src → Block us body →
      Sentence ((.keyword .for, line) :: (.identifier s, l) :: (.keyword .in, l') :: (ts ++ us))
        (.each line s src body)
  | raise {s : String} {line l : Nat} : Sentence [(.keyword .raise, line), (.identifier s, l)] (.raise line s)
  | attempt {ts us : List Placed} {body : List Statement} {h : Handler Statement}
      {hs : List (Handler Statement)} {line : Nat} : Block ts body → Handlers us (h :: hs) →
      Sentence ((.keyword .try, line) :: (ts ++ us)) (.attempt line body (h :: hs))
  | load {s : String} {line l : Nat} : Sentence [(.keyword .import, line), (.identifier s, l)] (.load line s)

/-- The further branches of an `if`. -/
inductive Branches : List Placed → List (Expr × List Statement) → Option (List Statement) → Prop where
  | done : Branches [] [] .none
  | elseIf {n ts us vs : List Placed} {c : Expr} {body : List Statement} {bs : List (Expr × List Statement)}
      {otherwise : Option (List Statement)} {l l' : Nat} : Breaks n → Expression 0 ts c → Block us body →
      Branches vs bs otherwise →
      Branches (n ++ (.keyword .else, l) :: (.keyword .if, l') :: (ts ++ us ++ vs)) ((c, body) :: bs) otherwise
  | otherwise {n us : List Placed} {body : List Statement} {l : Nat} : Breaks n → Block us body →
      Branches (n ++ (.keyword .else, l) :: us) [] (some body)

/-- The handlers of a `try`. -/
inductive Handlers : List Placed → List (Handler Statement) → Prop where
  | done : Handlers [] []
  | step {s : String} {n us vs : List Placed} {body : List Statement} {hs : List (Handler Statement)}
      {line l : Nat} : Breaks n → Block us body → Handlers vs hs →
      Handlers (n ++ (.keyword .catch, line) :: (.identifier s, l) :: (us ++ vs)) (⟨s, line, body⟩ :: hs)

/-- A block in braces after `do`. -/
inductive Block : List Placed → List Statement → Prop where
  | braces {ts : List Placed} {body : List Statement} {l l' l'' : Nat} : Sequence ts body →
      Block ((.keyword .do, l) :: (.mark .lBrace, l') :: (ts ++ [(.mark .rBrace, l'')])) body

/-- Statements, each of which ends at a separator or together with the whole sequence: at the closing
brace of its block or at the end of the script. -/
inductive Sequence : List Placed → List Statement → Prop where
  | done {n : List Placed} : Separators n → Sequence n []
  | step {n ts us : List Placed} {s : Statement} {ss : List Statement} : Separators n → Sentence ts s →
      (∀ p ∈ us.head?, isSeparator p.1 = true) → Sequence us ss → Sequence (n ++ ts ++ us) (s :: ss)

end

/-! ## First tokens -/

/-- Whether an expression whose operators have this level or a tighter one may start with a token. -/
def startsAt (l : Nat) : Token → Bool
  | .mark .lParen | .mark .lBracket | .identifier _ => true
  | .keyword .not => l ≤ 3
  | t => (constant? t).isSome || (sign? t).isSome && decide (l ≤ 11)

theorem startsAt_of_le {l l' : Nat} {t : Token} (hl : l ≤ l') (h : startsAt l' t = true) : startsAt l t = true := by
  unfold startsAt at h ⊢
  split at h
  all_goals grind

theorem Primary.starts {ts : List Placed} {e : Expr} (h : Primary ts e) :
    ∃ p us, ts = p :: us ∧ startsAt 13 p.1 = true := by
  cases h with
  | @constant t c line hc =>
    refine ⟨_, _, rfl, ?_⟩
    unfold startsAt
    split
    all_goals grind [constant?]
  | var => exact ⟨_, _, rfl, rfl⟩
  | call _ => exact ⟨_, _, rfl, rfl⟩
  | group _ _ _ => exact ⟨_, _, rfl, rfl⟩
  | collection _ => exact ⟨_, _, rfl, rfl⟩

theorem Expression.starts {l : Nat} {ts : List Placed} {e : Expr} (h : Expression l ts e) :
    ∃ p us, ts = p :: us ∧ startsAt l p.1 = true := by
  match h with
  | .chain _ _ ha _ =>
    obtain ⟨p, us, rfl, hp⟩ := ha.starts
    exact ⟨p, _, rfl, startsAt_of_le (Nat.le_succ _) hp⟩
  | .not _ => exact ⟨_, _, rfl, rfl⟩
  | .plain he =>
    obtain ⟨p, us, rfl, hp⟩ := he.starts
    exact ⟨p, _, rfl, startsAt_of_le (by omega) hp⟩
  | .sign hop _ =>
    refine ⟨_, _, rfl, ?_⟩
    unfold startsAt
    split
    all_goals grind [sign?]
  | .unsigned he =>
    obtain ⟨p, us, rfl, hp⟩ := he.starts
    exact ⟨p, _, rfl, startsAt_of_le (by omega) hp⟩
  | .power ha _ _ =>
    obtain ⟨p, us, rfl, hp⟩ := ha.starts
    exact ⟨p, _, rfl, startsAt_of_le (by omega) hp⟩
  | .operand he =>
    obtain ⟨p, us, rfl, hp⟩ := he.starts
    exact ⟨p, _, rfl, startsAt_of_le (by omega) hp⟩
  | .postfixed ha _ =>
    obtain ⟨p, us, rfl, hp⟩ := ha.starts
    exact ⟨p, _, rfl, hp⟩

theorem Expression.length_pos {l : Nat} {ts : List Placed} {e : Expr} (h : Expression l ts e) : 0 < ts.length := by
  obtain ⟨p, us, rfl, -⟩ := h.starts
  exact Nat.succ_pos _

/-- Whether a statement may start with a token. -/
def opens : Token → Bool
  | .keyword .let | .keyword .if | .keyword .while | .keyword .for | .keyword .raise | .keyword .try
  | .keyword .import => true
  | t => startsAt 0 t

theorem opens_of_startsAt {l : Nat} {t : Token} (h : startsAt l t = true) : opens t = true := by
  unfold opens
  split
  all_goals first | rfl | exact startsAt_of_le (Nat.zero_le l) h

theorem Sentence.starts {ts : List Placed} {s : Statement} (h : Sentence ts s) :
    ∃ p us, ts = p :: us ∧ opens p.1 = true := by
  cases h with
  | expression he =>
    obtain ⟨p, us, heq, hp⟩ := he.starts
    exact ⟨p, us, heq, opens_of_startsAt hp⟩
  | declare _ _ | assign _ _ | compound _ _ _ | choice _ _ _ | loop _ _ | each _ _ _ | raise | attempt _ _
  | load => exact ⟨_, _, rfl, rfl⟩

theorem Sentence.length_pos {ts : List Placed} {s : Statement} (h : Sentence ts s) : 0 < ts.length := by
  obtain ⟨p, us, rfl, -⟩ := h.starts
  exact Nat.succ_pos _

/-! ## Sequences -/

/-- Further separators may stand in front of statements. -/
theorem Sequence.separators {n ts : List Placed} {ss : List Statement} (hn : Separators n) (h : Sequence ts ss) :
    Sequence (n ++ ts) ss := by
  cases h with
  | done hm => exact .done (List.forall_mem_append.mpr ⟨hn, hm⟩)
  | step hm hs hhead hss =>
    rw [← List.append_assoc, ← List.append_assoc]
    exact .step (List.forall_mem_append.mpr ⟨hn, hm⟩) hs hhead hss

/-- Statements may follow others behind a separator. What stands in front of it is not read otherwise: a sequence
whose last statement used to end with it has a separator there now. -/
theorem Sequence.append {ts n us : List Placed} {ss rs : List Statement} (h : Sequence ts ss) (hn : Separators n)
    (hne : n ≠ []) (h' : Sequence us rs) : Sequence (ts ++ n ++ us) (ss ++ rs) := by
  match h with
  | .done hm => exact h'.separators (List.forall_mem_append.mpr ⟨hm, hn⟩)
  | @Sequence.step m ts vs s ss hm hs hhead hss =>
    have hfurther := hss.append hn hne h'
    obtain ⟨p, n, rfl⟩ := List.exists_cons_of_ne_nil hne
    have hhead' : ∀ q ∈ (vs ++ p :: n ++ us).head?, isSeparator q.1 = true := by
      cases vs with
      | nil =>
        rintro q ⟨⟩
        exact hn p List.mem_cons_self
      | cons v vs => exact hhead
    simp only [List.append_assoc, List.cons_append] at hfurther hhead' ⊢
    rw [← List.append_assoc]
    exact .step hm hs hhead' hfurther

end Grammar
end Crunch
