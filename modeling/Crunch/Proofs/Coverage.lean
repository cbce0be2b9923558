import Crunch.Proofs.Printing
import Crunch.Proofs.Recognition

/-!
# Crunch.Proofs.Coverage

No token of a script is lost, and none is read twice.

* `Covers`: tokens that are others with line ends, semicolons and pairs of parentheses added.
* `Grammar.Expression.covers` and the like: derived tokens cover the tokens that belong to the nodes of
  the tree.
-/

namespace Crunch

/-- The tokens are `ws` in the same order, with line ends, semicolons and pairs of parentheses added. -/
inductive Covers : List Token → List Token → Prop where
  | nil : Covers [] []
  | token (t : Token) : Covers [t] [t]
  | lineEnd : Covers [.newLine] []
  | semicolon : Covers [.mark .semicolon] []
  | group {ts ws : List Token} : Covers ts ws → Covers (.mark .lParen :: ts ++ [.mark .rParen]) ws
  | append {ts us ws xs : List Token} : Covers ts ws → Covers us xs → Covers (ts ++ us) (ws ++ xs)

theorem Covers.cons {t : Token} {ts ws : List Token} (h : Covers ts ws) : Covers (t :: ts) (t :: ws) :=
  .append (.token t) h

theorem Covers.drop {ts us ws : List Token} (h : Covers ts []) (h' : Covers us ws) : Covers (ts ++ us) ws :=
  .append h h'

theorem Covers.dropRight {ts us ws : List Token} (h : Covers ts ws) (h' : Covers us []) : Covers (ts ++ us) ws := by
  simpa using Covers.append h h'

/-- The words of placed tokens. -/
abbrev wordsOf (ts : List Placed) : List Token := ts.map Prod.fst

@[simp] theorem Form.group_bare (required : Bool) (ts : List Token) : Form.bare.group required ts = ts :=
  if_neg nofun

/-- The bare form has no parentheses that depend on where an expression stands. -/
theorem Expr.tokens_bare (e : Expr) (row : Nat) : e.tokens .bare row = e.tokens .bare 0 := by
  cases e <;> simp only [Expr.tokens, Form.group_bare]

namespace Grammar

open Parse

theorem Breaks.covers {n : List Placed} (h : Breaks n) : Covers (wordsOf n) [] := by
  induction n with
  | nil => exact .nil
  | cons p n ih =>
    have hp := h p List.mem_cons_self
    rw [wordsOf, List.map_cons, hp]
    exact .drop .lineEnd (ih fun q hq => h q (List.mem_cons_of_mem _ hq))

theorem Separators.covers {n : List Placed} (h : Separators n) : Covers (wordsOf n) [] := by
  induction n with
  | nil => exact .nil
  | cons p n ih =>
    obtain ⟨t, l⟩ := p
    have ht : isSeparator t = true := h _ List.mem_cons_self
    have hn := ih fun q hq => h q (List.mem_cons_of_mem _ hq)
    unfold isSeparator at ht
    split at ht
    · exact .drop .lineEnd hn
    · exact .drop .semicolon hn
    · cases ht

theorem token_of_operator {t : Token} {op : BinaryOp} (h : operator? t = some op) : t = op.token := by
  unfold operator? at h
  split at h
  all_goals cases h
  all_goals rfl

theorem token_of_sign {t : Token} {op : UnaryOp} (h : sign? t = some op) : t = op.token := by
  unfold sign? at h
  split at h
  all_goals cases h
  all_goals rfl

theorem token_of_constant {t : Token} {c : Constant} (h : constant? t = some c) : t = c.token := by
  unfold constant? at h
  split at h
  all_goals cases h
  all_goals rfl

theorem assignment_of_token {t : Token} {op : BinaryOp} (h : assignment? t = some (some op)) : t = op.assignment := by
  unfold assignment? at h
  split at h
  all_goals cases h
  all_goals rfl

theorem ofNat_toNat_position {n : Int64} (h : 0 < n.toInt) : Int64.ofNat n.toInt.toNat = n := by
  have hlt := n.toInt_lt
  apply Int64.toInt_inj.mp
  rw [Int64.toInt_ofNat_of_lt (by omega)]
  omega

theorem Method.tokens_eq {ms : List Placed} {m : Member} (h : Method ms m) : wordsOf ms = m.tokens := by
  cases h with
  | named => rfl
  | setField hn =>
    rw [Member.tokens, ofNat_toNat_position hn]
    rfl

theorem covers_self (ws : List Token) : Covers ws ws := by
  induction ws with
  | nil => exact .nil
  | cons w ws ih => exact ih.cons

mutual

theorem Expression.covers {l : Nat} {ts : List Placed} {e : Expr} (h : Expression l ts e) :
    Covers (wordsOf ts) (e.tokens .bare 0) := by
  match h with
  | .chain _ _ ha hus =>
    rw [wordsOf, List.map_append]
    exact hus.covers ha.covers
  | .not he =>
    rw [Expr.tokens, Form.group_bare, Expr.tokens_bare]
    exact he.covers.cons
  | .plain he => exact he.covers
  | .sign hop he =>
    obtain rfl := token_of_sign hop
    rw [Expr.tokens, Form.group_bare, Expr.tokens_bare]
    exact he.covers.cons
  | .unsigned he => exact he.covers
  | .power ha hn hb =>
    rw [Expr.tokens, Form.group_bare, Expr.tokens_bare, Expr.tokens_bare _ (BinaryOp.rightRow _), wordsOf,
      List.map_append, List.map_cons, List.map_append]
    exact ha.covers.append (.cons (.drop hn.covers hb.covers))
  | .operand he => exact he.covers
  | .postfixed ha hus =>
    rw [wordsOf, List.map_append]
    exact hus.covers ha.covers

theorem Further.covers {l : Nat} {a e : Expr} {ts : List Placed} {ws : List Token} (h : Further l a ts e)
    (ha : Covers ws (a.tokens .bare 0)) : Covers (ws ++ wordsOf ts) (e.tokens .bare 0) := by
  match h with
  | .done =>
    rw [wordsOf, List.map_nil, List.append_nil]
    exact ha
  | @Further.step l t op n ts us a b e line hop _ hn hb hus =>
    obtain rfl := token_of_operator hop
    have hright : Covers (ws ++ op.token :: (wordsOf n ++ wordsOf ts)) ((Expr.binary line op a b).tokens .bare 0) := by
      rw [Expr.tokens, Form.group_bare, Expr.tokens_bare, Expr.tokens_bare b]
      exact ha.append (.cons (.drop hn.covers hb.covers))
    simpa [wordsOf] using hus.covers hright

theorem Primary.covers {e : Expr} {ts : List Placed} (h : Primary ts e) :
    Covers (wordsOf ts) (e.tokens .bare 0) := by
  match h with
  | .constant hc =>
    obtain rfl := token_of_constant hc
    exact .token _
  | .var => exact .token _
  | .call hes => exact .cons (.cons hes.covers)
  | .group hn he hm =>
    simpa [wordsOf] using Covers.group ((Covers.drop hn.covers he.covers).dropRight hm.covers)
  | .collection hes => exact .cons hes.covers

theorem Postfixes.covers {a e : Expr} {ts : List Placed} {ws : List Token} (h : Postfixes a ts e)
    (ha : Covers ws (a.tokens .bare 0)) : Covers (ws ++ wordsOf ts) (e.tokens .bare 0) := by
  match h with
  | .done =>
    rw [wordsOf, List.map_nil, List.append_nil]
    exact ha
  | @Postfixes.index ts us a i e line l hi hus =>
    have hindex : Covers (ws ++ .mark .lBracket :: (wordsOf ts ++ [.mark .rBracket]))
        ((Expr.index line a i).tokens .bare 0) := by
      rw [Expr.tokens, Expr.tokens_bare]
      exact ha.append (.cons (hi.covers.append (.token _)))
    simpa [wordsOf] using hus.covers hindex
  | @Postfixes.field n us a e line l hn hus =>
    have hfield : Covers (ws ++ [.mark .at, .integer n]) ((Expr.field line a n.toInt.toNat).tokens .bare 0) := by
      rw [Expr.tokens, Expr.tokens_bare, ofNat_toNat_position hn]
      exact ha.append (.cons (.token _))
    simpa [wordsOf] using hus.covers hfield
  | @Postfixes.member m ms ts us a e es line l hm hes hus =>
    have hcall : Covers (ws ++ .mark .dot :: (m.tokens ++ .mark .lParen :: wordsOf ts))
        ((Expr.member line a m es).tokens .bare 0) := by
      rw [Expr.tokens, Expr.tokens_bare]
      exact ha.append (.cons ((covers_self _).append (.cons hes.covers)))
    rw [← hm.tokens_eq] at hcall
    simpa [wordsOf] using hus.covers hcall

theorem Items.covers {c : Mark} {ts : List Placed} {es : List Expr} (h : Items c ts es) :
    Covers (wordsOf ts) (Expr.tokensAll .bare es ++ [.mark c]) := by
  match h with
  | .none hn =>
    rw [wordsOf, List.map_append]
    exact hn.covers.append (.token _)
  | .last hn he hm =>
    simp only [wordsOf, List.map_append, Expr.tokensAll]
    exact ((Covers.drop hn.covers he.covers).dropRight hm.covers).append (.token _)
  | .more hn he hm hes =>
    simp only [wordsOf, List.map_append, Expr.tokensAll, List.append_assoc, List.cons_append]
    simpa using ((Covers.drop hn.covers he.covers).dropRight hm.covers).append (.cons hes.covers)

end

theorem Range.covers {ts : List Placed} {src : Source} (h : Range ts src) :
    Covers (wordsOf ts) (src.tokens .bare) := by
  cases h with
  | elements he => exact he.covers
  | exclusive ha hb | inclusive ha hb =>
    rw [wordsOf, List.map_append, List.map_cons]
    exact ha.covers.append hb.covers.cons

/-- The keyword of a first branch belongs to the statement. -/
theorem covers_branch (lead : List Token) {ts us vs : List Token} {c : Expr} {body : List Statement}
    {bs : List (Expr × List Statement)} {otherwise : Option (List Statement)} (hc : Covers ts (c.tokens .bare 0))
    (hbody : Covers us (blockOf (Statement.tokensAll .bare body)))
    (hrest : Covers vs (Statement.tokensBranches .bare [.keyword .else, .keyword .if] bs ++
      Statement.tokensOptional .bare otherwise)) :
    Covers (lead ++ (ts ++ us ++ vs))
      (Statement.tokensBranches .bare lead ((c, body) :: bs) ++ Statement.tokensOptional .bare otherwise) := by
  simp only [Statement.tokensBranches, List.append_assoc]
  exact (covers_self lead).append (hc.append (hbody.append hrest))

/-- Statements in front of others. The separators between them are no words. -/
theorem tokensAll_cons (s : Statement) (ss : List Statement) :
    Statement.tokensAll .bare (s :: ss) = s.tokens .bare ++ Statement.tokensAll .bare ss := by
  cases ss with
  | nil => simp only [Statement.tokensAll, List.append_nil]
  | cons s' ss => rfl

mutual

theorem Sentence.covers {ts : List Placed} {s : Statement} (h : Sentence ts s) :
    Covers (wordsOf ts) (s.tokens .bare) := by
  match h with
  | .expression he => exact he.covers
  | .declare _ he => exact .cons (.cons (.cons he.covers))
  | .assign _ he => exact .cons (.cons he.covers)
  | .compound hop _ he =>
    obtain rfl := assignment_of_token hop
    exact .cons (.cons he.covers)
  | .choice hc hbody hbs =>
    rw [wordsOf, List.map_cons, List.map_append, List.map_append]
    exact covers_branch [.keyword .if] hc.covers hbody.covers hbs.covers
  | .loop hc hbody =>
    rw [wordsOf, List.map_cons, List.map_append]
    exact .cons (hc.covers.append hbody.covers)
  | .each _ hsrc hbody =>
    rw [wordsOf, List.map_cons, List.map_cons, List.map_cons, List.map_append]
    exact .cons (.cons (.cons (hsrc.covers.append hbody.covers)))
  | .raise => exact covers_self _
  | .attempt hbody hhs =>
    rw [wordsOf, List.map_cons, List.map_append]
    exact .cons (hbody.covers.append hhs.covers)
  | .load => exact covers_self _

theorem Branches.covers {ts : List Placed} {bs : List (Expr × List Statement)} {otherwise : Option (List Statement)}
    (h : Branches ts bs otherwise) :
    Covers (wordsOf ts) (Statement.tokensBranches .bare [.keyword .else, .keyword .if] bs ++
      Statement.tokensOptional .bare otherwise) := by
  match h with
  | .done => exact .nil
  | .elseIf hn hc hbody hbs =>
    rw [wordsOf, List.map_append, List.map_cons, List.map_cons, List.map_append, List.map_append]
    exact .drop hn.covers (covers_branch [.keyword .else, .keyword .if] hc.covers hbody.covers hbs.covers)
  | .otherwise hn hbody =>
    rw [wordsOf, List.map_append, List.map_cons]
    exact .drop hn.covers (.cons hbody.covers)

theorem Handlers.covers {ts : List Placed} {hs : List (Handler Statement)} (h : Handlers ts hs) :
    Covers (wordsOf ts) (Statement.tokensHandlers .bare hs) := by
  match h with
  | .done => exact .nil
  | .step hn hbody hhs =>
    rw [wordsOf, List.map_append, List.map_cons, List.map_cons, List.map_append]
    exact .drop hn.covers (.cons (.cons (hbody.covers.append hhs.covers)))

theorem Block.covers {ts : List Placed} {body : List Statement} (h : Block ts body) :
    Covers (wordsOf ts) (blockOf (Statement.tokensAll .bare body)) := by
  match h with
  | .braces hbody =>
    rw [wordsOf, List.map_cons, List.map_cons, List.map_append]
    exact .cons (.cons (hbody.covers.append (.token _)))

theorem Sequence.covers {ts : List Placed} {ss : List Statement} (h : Sequence ts ss) :
    Covers (wordsOf ts) (Statement.tokensAll .bare ss) := by
  match h with
  | .done hn => exact hn.covers
  | .step hn hs _ hss =>
    rw [wordsOf, List.map_append, List.map_append, List.append_assoc, tokensAll_cons]
    exact .drop hn.covers (hs.covers.append hss.covers)

end

end Grammar

/-- A script is read exactly if the grammar derives it, and then its tokens are those of the tree in their
order, with nothing added but line ends, semicolons and parentheses around expressions. -/
theorem Program.ofTokens_iff_derived (ts : List Placed) (p : Program) :
    Program.ofTokens ts = .ok p ↔ Grammar.Sequence ts p ∧ Covers (wordsOf ts) (p.tokens .bare) := by
  constructor
  · intro h
    have hp := sequence_of_ofTokens h
    exact ⟨hp, hp.covers⟩
  · rintro ⟨hp, -⟩
    exact ofTokens_of_sequence hp

end Crunch
