import Crunch.Proofs.Printing
import Crunch.Proofs.Recognition

/-!
# Crunch.Proofs.RoundTrip

What is printed is read back.

* `Grammar.Expression.loosen`: an expression is also one of each looser level.
* `Expr.written`, `Statement.written_all`: the grammar derives the printed form of every well-formed tree,
  with the tree that was printed but for its lines.
* `Program.ofTokens_printed`: the parser gives that tree.

The induction is on the tree. Where an operand stands in parentheses it is derived on the loosest level,
where it stands without it is derived on its own level, which is not looser than its place.
-/

namespace Crunch

namespace Grammar

open Parse

theorem Further.trans {l : Nat} {a b c : Expr} {ts us : List Placed} (h : Further l a ts b) (h' : Further l b us c) :
    Further l a (ts ++ us) c := by
  match h with
  | .done => exact h'
  | .step hop hl hn hb hrest =>
    rw [List.cons_append, List.append_assoc]
    exact .step hop hl hn hb (hrest.trans h')

theorem Postfixes.trans {a b c : Expr} {ts us : List Placed} (h : Postfixes a ts b) (h' : Postfixes b us c) :
    Postfixes a (ts ++ us) c := by
  match h with
  | .done => exact h'
  | .index hi hrest =>
    rw [List.cons_append, List.append_assoc, List.cons_append]
    exact .index hi (hrest.trans h')
  | .field hn hrest => exact .field hn (hrest.trans h')
  | .member hm hes hrest =>
    rw [List.cons_append, List.append_assoc, List.cons_append, List.append_assoc]
    exact .member hm hes (hrest.trans h')

/-- An expression is also one of the next looser level. -/
theorem Expression.loosen_one {l : Nat} {ts : List Placed} {e : Expr} (h : Expression (l + 1) ts e) (hl : l ≤ 12) :
    Expression l ts e := by
  by_cases h12 : l = 12
  · subst h12
    exact .operand h
  by_cases h11 : l = 11
  · subst h11
    exact .unsigned h
  by_cases h3 : l = 3
  · subst h3
    exact .plain h
  · rw [← List.append_nil ts]
    exact .chain (by omega) h3 h .done

theorem Expression.loosen {l m : Nat} {ts : List Placed} {e : Expr} (h : Expression m ts e) (hl : l ≤ m)
    (hm : m ≤ 13) : Expression l ts e := by
  obtain ⟨k, rfl⟩ := Nat.exists_eq_add_of_le hl
  induction k with
  | zero => exact h
  | succ k ih =>
    have hk : l + k ≤ 12 := Nat.le_of_succ_le_succ hm
    exact ih (h.loosen_one hk) (Nat.le_add_right l k) (Nat.le_succ_of_le hk)

theorem Primary.expression {ts : List Placed} {e : Expr} (h : Primary ts e) : Expression 13 ts e := by
  rw [← List.append_nil ts]
  exact .postfixed h .done

theorem Expression.postfix_trans {ts us : List Placed} {a e : Expr} (h : Expression 13 ts a) (hus : Postfixes a us e) :
    Expression 13 (ts ++ us) e := by
  cases h with
  | postfixed ha hts =>
    rw [List.append_assoc]
    exact .postfixed ha (hts.trans hus)
  | chain h => omega

/-- One more operator of a level, with its right operand. -/
theorem Expression.binary {op : BinaryOp} {t : Token} {line : Nat} {ts us : List Placed} {a b : Expr}
    (hop : operator? t = some op) (hpower : op ≠ .power) (ha : Expression op.level ts a)
    (hb : Expression (op.level + 1) us b) : Expression op.level (ts ++ (t, line) :: us) (.binary line op a b) := by
  have hstep : Further op.level a ((t, line) :: us) (.binary line op a b) := by
    simpa using Further.step hop rfl (n := []) nofun hb .done
  generalize hl : op.level = l at ha hstep ⊢
  cases ha with
  | chain h h' ha hts =>
    rw [List.append_assoc]
    exact .chain h h' ha (hts.trans hstep)
  | not | plain | sign | unsigned | power | operand | postfixed =>
    cases op <;> first | exact absurd rfl hpower | cases hl

theorem Expression.written_binary {op : BinaryOp} {line : Nat} {ts us : List Placed} {a b : Expr}
    (ha : Expression op.leftRow ts a) (hb : Expression op.rightRow us b) :
    Expression op.row (ts ++ (op.token, line) :: us) (.binary line op a b) := by
  by_cases hpower : op = .power
  · subst hpower
    exact .power ha (n := []) nofun hb
  · rw [BinaryOp.leftRow, if_neg hpower] at ha
    rw [BinaryOp.rightRow, if_neg hpower] at hb
    rw [op.row_eq_level] at ha hb ⊢
    exact .binary op.operator?_token hpower ha hb

theorem Expression.unary {op : UnaryOp} {line : Nat} {ts : List Placed} {e : Expr} (h : Expression op.row ts e) :
    Expression op.row ((op.token, line) :: ts) (.unary line op e) := by
  cases op with
  | not => exact .not h
  | negate | plus | bitNot => exact .sign rfl h

end Grammar

open Grammar

/-- The tokens are the expression, but for its lines. -/
def Expr.Written (e : Expr) (row : Nat) (ts : List Placed) : Prop :=
  ∃ e', Expression row ts e' ∧ e'.unplaced = e.unplaced

theorem Expr.Written.primary {e e' : Expr} {row : Nat} {ts : List Placed} (h : Primary ts e')
    (heq : e'.unplaced = e.unplaced) (hrow : row ≤ operandRow) : e.Written row ts :=
  ⟨e', h.expression.loosen hrow (Nat.le_refl 13), heq⟩

theorem Expr.Written.postfixed {e a' e' : Expr} {row : Nat} {ts us : List Placed} (ha : Expression operandRow ts a')
    (hus : Postfixes a' us e') (heq : e'.unplaced = e.unplaced) (hrow : row ≤ operandRow) :
    e.Written row (ts ++ us) :=
  ⟨e', (ha.postfix_trans hus).loosen hrow (Nat.le_refl 13), heq⟩

/-- Parentheses make an operand of every expression. -/
theorem Expr.written_group {e : Expr} {own row : Nat} {ts : List Placed} {body : List Token} (hown : own ≤ operandRow)
    (hrow : row ≤ operandRow) (hts : ts.map Prod.fst = Form.printed.group (own < row) body)
    (h : ∀ us : List Placed, us.map Prod.fst = body → e.Written own us) : e.Written row ts := by
  unfold Form.group at hts
  split at hts
  · obtain ⟨p, ts, rfl, hp, hts⟩ := List.map_eq_cons_iff.mp hts
    obtain ⟨us, vs, rfl, hus, hvs⟩ := List.map_eq_append_iff.mp hts
    obtain ⟨q, vs, rfl, hq, hvs⟩ := List.map_eq_cons_iff.mp hvs
    obtain rfl := List.map_eq_nil_iff.mp hvs
    obtain ⟨t, l⟩ := p
    obtain ⟨t', l'⟩ := q
    subst hp hq
    obtain ⟨e', he', heq⟩ := h us hus
    have hgroup : Primary ((.mark .lParen, l) :: (us ++ [(.mark .rParen, l')])) e' := by
      simpa using Primary.group (n := []) nofun (he'.loosen (Nat.zero_le own) hown) (m := []) nofun
    exact .primary hgroup heq hrow
  · rename_i hrequired
    obtain ⟨e', he', heq⟩ := h ts hts
    have hle : row ≤ own := by simpa using hrequired
    exact ⟨e', he'.loosen hle hown, heq⟩

theorem Member.written {m : Member} {ms : List Placed} (hm : m.isWellFormed = true) (hms : ms.map Prod.fst = m.tokens) :
    Grammar.Method ms m := by
  cases m with
  | named s =>
    obtain ⟨⟨t, l⟩, rfl, ht⟩ := List.map_eq_singleton_iff.mp hms
    subst ht
    exact .named
  | setField p =>
    obtain ⟨hpos, hp⟩ := toNat_ofNat_position hm
    obtain ⟨⟨t, l⟩, ms, rfl, ht, hms⟩ := List.map_eq_cons_iff.mp hms
    obtain ⟨⟨t', l'⟩, ms, rfl, ht', hms⟩ := List.map_eq_cons_iff.mp hms
    obtain ⟨⟨t'', l''⟩, rfl, ht''⟩ := List.map_eq_singleton_iff.mp hms
    subst ht ht' ht''
    simpa only [hp] using Method.setField hpos

mutual

theorem Expr.written (e : Expr) (he : e.isWellFormed = true) (row : Nat) (hrow : row ≤ operandRow) (ts : List Placed)
    (hts : ts.map Prod.fst = e.tokens .printed row) : e.Written row ts := by
  match e with
  | .constant line c =>
    obtain ⟨⟨t, l⟩, rfl, ht⟩ := List.map_eq_singleton_iff.mp hts
    subst ht
    exact .primary (.constant c.constant?_token) rfl hrow
  | .var line s =>
    obtain ⟨⟨t, l⟩, rfl, ht⟩ := List.map_eq_singleton_iff.mp hts
    subst ht
    exact .primary .var rfl hrow
  | .unary line op e =>
    rw [Expr.isWellFormed] at he
    refine Expr.written_group (by cases op <;> decide) hrow hts fun us hus => ?_
    obtain ⟨⟨t, l⟩, vs, rfl, ht, hvs⟩ := List.map_eq_cons_iff.mp hus
    subst ht
    obtain ⟨e', he', heq⟩ := Expr.written e he op.row (by cases op <;> decide) vs hvs
    exact ⟨_, he'.unary, congrArg (Expr.unary 0 op) heq⟩
  | .binary line op a b =>
    rw [Expr.isWellFormed, Bool.and_eq_true] at he
    refine Expr.written_group (by cases op <;> decide) hrow hts fun us hus => ?_
    obtain ⟨ls, vs, rfl, hls, hvs⟩ := List.map_eq_append_iff.mp hus
    obtain ⟨⟨t, l⟩, rs, rfl, ht, hrs⟩ := List.map_eq_cons_iff.mp hvs
    obtain rfl : op.token = t := ht.symm
    obtain ⟨a', ha', heqa⟩ := Expr.written a he.1 op.leftRow op.leftRow_le ls hls
    obtain ⟨b', hb', heqb⟩ := Expr.written b he.2 op.rightRow op.rightRow_le rs hrs
    exact ⟨.binary l op a' b', .written_binary ha' hb', by simp only [Expr.unplaced, heqa, heqb]⟩
  | .call line s es =>
    rw [Expr.isWellFormed] at he
    obtain ⟨⟨t, l⟩, us, rfl, ht, hus⟩ := List.map_eq_cons_iff.mp hts
    obtain ⟨⟨t', l'⟩, vs, rfl, ht', hvs⟩ := List.map_eq_cons_iff.mp hus
    subst ht ht'
    obtain ⟨es', hes', heq⟩ := Expr.written_all es he .rParen vs hvs
    exact .primary (.call hes') (congrArg (Expr.call 0 s) heq) hrow
  | .member line a m es =>
    rw [Expr.isWellFormed, Bool.and_eq_true, Bool.and_eq_true] at he
    obtain ⟨us, vs, rfl, hus, hvs⟩ := List.map_eq_append_iff.mp hts
    obtain ⟨⟨t, l⟩, ws, rfl, ht, hws⟩ := List.map_eq_cons_iff.mp hvs
    obtain ⟨ms, xs, rfl, hms, hxs⟩ := List.map_eq_append_iff.mp hws
    obtain ⟨⟨t', l'⟩, ys, rfl, ht', hys⟩ := List.map_eq_cons_iff.mp hxs
    subst ht ht'
    obtain ⟨a', ha', heqa⟩ := Expr.written a he.1.1 operandRow (Nat.le_refl _) us hus
    obtain ⟨es', hes', heqes⟩ := Expr.written_all es he.2 .rParen ys hys
    have hcall : Postfixes a' ((.mark .dot, l) :: (ms ++ (.mark .lParen, l') :: ys)) (.member l a' m es') := by
      simpa using Postfixes.member (Member.written he.1.2 hms) hes' .done
    exact .postfixed ha' hcall (by simp only [Expr.unplaced, heqa, heqes]) hrow
  | .index line a i =>
    rw [Expr.isWellFormed, Bool.and_eq_true] at he
    obtain ⟨us, vs, rfl, hus, hvs⟩ := List.map_eq_append_iff.mp hts
    obtain ⟨⟨t, l⟩, ws, rfl, ht, hws⟩ := List.map_eq_cons_iff.mp hvs
    obtain ⟨xs, ys, rfl, hxs, hys⟩ := List.map_eq_append_iff.mp hws
    obtain ⟨⟨t', l'⟩, rfl, ht'⟩ := List.map_eq_singleton_iff.mp hys
    subst ht ht'
    obtain ⟨a', ha', heqa⟩ := Expr.written a he.1 operandRow (Nat.le_refl _) us hus
    obtain ⟨i', hi', heqi⟩ := Expr.written i he.2 0 (Nat.zero_le _) xs hxs
    exact .postfixed ha' (.index hi' .done) (by simp only [Expr.unplaced, heqa, heqi]) hrow
  | .field line a p =>
    rw [Expr.isWellFormed, Bool.and_eq_true] at he
    obtain ⟨hpos, hp⟩ := toNat_ofNat_position he.2
    obtain ⟨us, vs, rfl, hus, hvs⟩ := List.map_eq_append_iff.mp hts
    obtain ⟨⟨t, l⟩, ws, rfl, ht, hws⟩ := List.map_eq_cons_iff.mp hvs
    obtain ⟨⟨t', l'⟩, rfl, ht'⟩ := List.map_eq_singleton_iff.mp hws
    subst ht ht'
    obtain ⟨a', ha', heqa⟩ := Expr.written a he.1 operandRow (Nat.le_refl _) us hus
    have hfield : Postfixes a' [(.mark .at, l), (.integer (Int64.ofNat p), l')] (.field l a' p) := by
      simpa only [hp] using Postfixes.field hpos .done
    exact .postfixed ha' hfield (by simp only [Expr.unplaced, heqa]) hrow
  | .collection line es =>
    rw [Expr.isWellFormed] at he
    obtain ⟨⟨t, l⟩, us, rfl, ht, hus⟩ := List.map_eq_cons_iff.mp hts
    subst ht
    obtain ⟨es', hes', heq⟩ := Expr.written_all es he .rBracket us hus
    exact .primary (.collection hes') (congrArg (Expr.collection 0) heq) hrow

theorem Expr.written_all (es : List Expr) (hes : Expr.areWellFormed es = true) (c : Mark) (ts : List Placed)
    (hts : ts.map Prod.fst = Expr.tokensAll .printed es ++ [.mark c]) :
    ∃ es', Items c ts es' ∧ Expr.unplacedAll es' = Expr.unplacedAll es := by
  match es with
  | [] =>
    obtain ⟨⟨t, l⟩, rfl, ht⟩ := List.map_eq_singleton_iff.mp hts
    subst ht
    exact ⟨[], .none (n := []) nofun, rfl⟩
  | [e] =>
    rw [Expr.areWellFormed, Bool.and_eq_true] at hes
    obtain ⟨us, vs, rfl, hus, hvs⟩ := List.map_eq_append_iff.mp hts
    obtain ⟨⟨t, l⟩, rfl, ht⟩ := List.map_eq_singleton_iff.mp hvs
    subst ht
    obtain ⟨e', he', heq⟩ := Expr.written e hes.1 0 (Nat.zero_le _) us hus
    refine ⟨[e'], ?_, by simp only [Expr.unplacedAll, heq]⟩
    simpa using Items.last (n := []) nofun he' (m := []) nofun
  | e :: e₂ :: es =>
    rw [Expr.areWellFormed, Bool.and_eq_true] at hes
    rw [Expr.tokensAll, List.append_assoc] at hts
    obtain ⟨us, vs, rfl, hus, hvs⟩ := List.map_eq_append_iff.mp hts
    obtain ⟨⟨t, l⟩, ws, rfl, ht, hws⟩ := List.map_eq_cons_iff.mp hvs
    subst ht
    obtain ⟨e', he', heq⟩ := Expr.written e hes.1 0 (Nat.zero_le _) us hus
    obtain ⟨es', hes', heqs⟩ := Expr.written_all (e₂ :: es) hes.2 c ws hws
    cases es' with
    | nil => cases heqs
    | cons e₂' es' =>
      refine ⟨e' :: e₂' :: es', ?_, (congrArg (· :: _) heq).trans (congrArg (_ :: ·) heqs)⟩
      simpa using Items.more (n := []) nofun he' (m := []) nofun hes'

end

/-! ## Statements -/

theorem Source.written {src : Source} (h : src.isWellFormed = true) {ts : List Placed}
    (hts : ts.map Prod.fst = src.tokens .printed) : ∃ src', Range ts src' ∧ src'.unplaced = src.unplaced := by
  cases src with
  | elements e =>
    rw [Source.isWellFormed] at h
    obtain ⟨e', he', heq⟩ := Expr.written e h 0 (Nat.zero_le _) ts hts
    exact ⟨.elements e', .elements he', congrArg Source.elements heq⟩
  | range a b inclusive =>
    rw [Source.isWellFormed, Bool.and_eq_true] at h
    cases inclusive with
    | false =>
      obtain ⟨us, vs, rfl, hus, hvs⟩ := List.map_eq_append_iff.mp hts
      obtain ⟨⟨t, l⟩, ws, rfl, ht, hws⟩ := List.map_eq_cons_iff.mp hvs
      subst ht
      obtain ⟨a', ha', heqa⟩ := Expr.written a h.1 0 (Nat.zero_le _) us hus
      obtain ⟨b', hb', heqb⟩ := Expr.written b h.2 0 (Nat.zero_le _) ws hws
      exact ⟨_, .exclusive ha' hb', by simp only [Source.unplaced, heqa, heqb]⟩
    | true =>
      obtain ⟨us, vs, rfl, hus, hvs⟩ := List.map_eq_append_iff.mp hts
      obtain ⟨⟨t, l⟩, ws, rfl, ht, hws⟩ := List.map_eq_cons_iff.mp hvs
      subst ht
      obtain ⟨a', ha', heqa⟩ := Expr.written a h.1 0 (Nat.zero_le _) us hus
      obtain ⟨b', hb', heqb⟩ := Expr.written b h.2 0 (Nat.zero_le _) ws hws
      exact ⟨_, .inclusive ha' hb', by simp only [Source.unplaced, heqa, heqb]⟩

theorem block_written {body : List Statement} {ts : List Placed}
    (hts : ts.map Prod.fst = blockOf (Statement.tokensAll .printed body))
    (h : ∀ us : List Placed, us.map Prod.fst = Statement.tokensAll .printed body →
      ∃ body', Sequence us body' ∧ Statement.unplacedAll body' = Statement.unplacedAll body) :
    ∃ body', Block ts body' ∧ Statement.unplacedAll body' = Statement.unplacedAll body := by
  obtain ⟨⟨t, l⟩, us, rfl, ht, hus⟩ := List.map_eq_cons_iff.mp hts
  obtain ⟨⟨t', l'⟩, vs, rfl, ht', hvs⟩ := List.map_eq_cons_iff.mp hus
  obtain ⟨ws, xs, rfl, hws, hxs⟩ := List.map_eq_append_iff.mp hvs
  obtain ⟨⟨t'', l''⟩, rfl, ht''⟩ := List.map_eq_singleton_iff.mp hxs
  subst ht ht' ht''
  obtain ⟨body', hbody', heq⟩ := h ws hws
  exact ⟨body', .braces hbody', heq⟩

mutual

theorem Statement.written (s : Statement) (hs : s.isWellFormed = true) (ts : List Placed)
    (hts : ts.map Prod.fst = s.tokens .printed) : ∃ s', Sentence ts s' ∧ s'.unplaced = s.unplaced := by
  match s with
  | .expression line e =>
    rw [Statement.isWellFormed] at hs
    obtain ⟨e', he', heq⟩ := Expr.written e hs 0 (Nat.zero_le _) ts hts
    obtain ⟨⟨t, l⟩, us, rfl, -⟩ := he'.starts
    exact ⟨_, .expression he', congrArg (Statement.expression 0) heq⟩
  | .declare line x e =>
    rw [Statement.isWellFormed, Bool.and_eq_true, Bool.not_eq_true'] at hs
    obtain ⟨⟨t, l⟩, us, rfl, ht, hus⟩ := List.map_eq_cons_iff.mp hts
    obtain ⟨⟨t', l'⟩, vs, rfl, ht', hvs⟩ := List.map_eq_cons_iff.mp hus
    obtain ⟨⟨t'', l''⟩, ws, rfl, ht'', hws⟩ := List.map_eq_cons_iff.mp hvs
    subst ht ht' ht''
    obtain ⟨e', he', heq⟩ := Expr.written e hs.2 0 (Nat.zero_le _) ws hws
    exact ⟨_, .declare hs.1 he', congrArg (Statement.declare 0 x) heq⟩
  | .assign line x e =>
    rw [Statement.isWellFormed, Bool.and_eq_true, Bool.not_eq_true'] at hs
    obtain ⟨⟨t, l⟩, us, rfl, ht, hus⟩ := List.map_eq_cons_iff.mp hts
    obtain ⟨⟨t', l'⟩, vs, rfl, ht', hvs⟩ := List.map_eq_cons_iff.mp hus
    subst ht ht'
    obtain ⟨e', he', heq⟩ := Expr.written e hs.2 0 (Nat.zero_le _) vs hvs
    exact ⟨_, .assign hs.1 he', congrArg (Statement.assign 0 x) heq⟩
  | .compound line x op e =>
    rw [Statement.isWellFormed, Bool.and_eq_true, Bool.and_eq_true, Bool.not_eq_true'] at hs
    obtain ⟨⟨t, l⟩, us, rfl, ht, hus⟩ := List.map_eq_cons_iff.mp hts
    obtain ⟨⟨t', l'⟩, vs, rfl, ht', hvs⟩ := List.map_eq_cons_iff.mp hus
    subst ht ht'
    obtain ⟨e', he', heq⟩ := Expr.written e hs.2 0 (Nat.zero_le _) vs hvs
    exact ⟨_, .compound (BinaryOp.assignment?_assignment hs.1.2) hs.1.1 he', congrArg (Statement.compound 0 x op) heq⟩
  | .choice line [] otherwise => cases hs
  | .choice line ((c, body) :: bs) otherwise =>
    rw [Statement.isWellFormed, Bool.and_eq_true, Bool.and_eq_true, Statement.branchesWellFormed, Bool.and_eq_true,
      Bool.and_eq_true] at hs
    simp only [Statement.tokens, Statement.tokensBranches, List.append_assoc, List.cons_append, List.nil_append] at hts
    obtain ⟨⟨t, l⟩, us, rfl, ht, hus⟩ := List.map_eq_cons_iff.mp hts
    obtain ⟨cs, vs, rfl, hcs, hvs⟩ := List.map_eq_append_iff.mp hus
    obtain ⟨ds, ws, rfl, hds, hws⟩ := List.map_eq_append_iff.mp hvs
    subst ht
    obtain ⟨c', hc', heqc⟩ := Expr.written c hs.1.2.1.1 0 (Nat.zero_le _) cs hcs
    obtain ⟨body', hbody', heqb⟩ := block_written hds (Statement.written_all body hs.1.2.1.2)
    obtain ⟨bs', otherwise', hbs', heqbs, heqo⟩ :=
      Statement.written_branches bs hs.1.2.2 otherwise (Statement.written_optional otherwise hs.2) ws hws
    refine ⟨.choice l ((c', body') :: bs') otherwise', ?_, ?_⟩
    · rw [← List.append_assoc]
      exact .choice hc' hbody' hbs'
    · simp only [Statement.unplaced, Statement.unplacedBranches, heqc, heqb, heqbs, heqo]
  | .loop line c body =>
    rw [Statement.isWellFormed, Bool.and_eq_true] at hs
    obtain ⟨⟨t, l⟩, us, rfl, ht, hus⟩ := List.map_eq_cons_iff.mp hts
    obtain ⟨cs, ds, rfl, hcs, hds⟩ := List.map_eq_append_iff.mp hus
    subst ht
    obtain ⟨c', hc', heqc⟩ := Expr.written c hs.1 0 (Nat.zero_le _) cs hcs
    obtain ⟨body', hbody', heqb⟩ := block_written hds (Statement.written_all body hs.2)
    exact ⟨_, .loop hc' hbody', by simp only [Statement.unplaced, heqc, heqb]⟩
  | .each line x src body =>
    rw [Statement.isWellFormed, Bool.and_eq_true, Bool.and_eq_true, Bool.not_eq_true'] at hs
    obtain ⟨⟨t, l⟩, us, rfl, ht, hus⟩ := List.map_eq_cons_iff.mp hts
    obtain ⟨⟨t', l'⟩, vs, rfl, ht', hvs⟩ := List.map_eq_cons_iff.mp hus
    obtain ⟨⟨t'', l''⟩, ws, rfl, ht'', hws⟩ := List.map_eq_cons_iff.mp hvs
    obtain ⟨cs, ds, rfl, hcs, hds⟩ := List.map_eq_append_iff.mp hws
    subst ht ht' ht''
    obtain ⟨src', hsrc', heqs⟩ := Source.written hs.1.2 hcs
    obtain ⟨body', hbody', heqb⟩ := block_written hds (Statement.written_all body hs.2)
    exact ⟨_, .each hs.1.1 hsrc' hbody', by simp only [Statement.unplaced, heqs, heqb]⟩
  | .raise line x =>
    obtain ⟨⟨t, l⟩, us, rfl, ht, hus⟩ := List.map_eq_cons_iff.mp hts
    obtain ⟨⟨t', l'⟩, rfl, ht'⟩ := List.map_eq_singleton_iff.mp hus
    subst ht ht'
    exact ⟨_, .raise, rfl⟩
  | .attempt line body [] =>
    rw [Statement.isWellFormed] at hs
    cases hs
  | .attempt line body (handler :: hs') =>
    rw [Statement.isWellFormed, Bool.and_eq_true, Bool.and_eq_true] at hs
    obtain ⟨⟨t, l⟩, us, rfl, ht, hus⟩ := List.map_eq_cons_iff.mp hts
    obtain ⟨ds, ws, rfl, hds, hws⟩ := List.map_eq_append_iff.mp hus
    subst ht
    obtain ⟨body', hbody', heqb⟩ := block_written hds (Statement.written_all body hs.1.2)
    obtain ⟨handlers', hhandlers', heqh⟩ := Statement.written_handlers (handler :: hs') hs.2 ws hws
    cases handlers' with
    | nil => cases heqh
    | cons handler' hs'' => exact ⟨_, .attempt hbody' hhandlers', by simp only [Statement.unplaced, heqb, heqh]⟩
  | .load line x =>
    obtain ⟨⟨t, l⟩, us, rfl, ht, hus⟩ := List.map_eq_cons_iff.mp hts
    obtain ⟨⟨t', l'⟩, rfl, ht'⟩ := List.map_eq_singleton_iff.mp hus
    subst ht ht'
    exact ⟨_, .load, rfl⟩

theorem Statement.written_all (ss : List Statement) (hss : Statement.areWellFormed ss = true) (ts : List Placed)
    (hts : ts.map Prod.fst = Statement.tokensAll .printed ss) :
    ∃ ss', Sequence ts ss' ∧ Statement.unplacedAll ss' = Statement.unplacedAll ss := by
  match ss with
  | [] =>
    obtain rfl := List.map_eq_nil_iff.mp hts
    exact ⟨[], .done (n := []) nofun, rfl⟩
  | [s] =>
    rw [Statement.areWellFormed, Bool.and_eq_true] at hss
    obtain ⟨s', hs', heq⟩ := Statement.written s hss.1 ts hts
    refine ⟨[s'], ?_, by simp only [Statement.unplacedAll, heq]⟩
    have hend : Sequence [] [] := .done nofun
    simpa using Sequence.step (n := []) nofun hs' (by simp) hend
  | s :: s₂ :: ss =>
    rw [Statement.areWellFormed, Bool.and_eq_true] at hss
    obtain ⟨us, vs, rfl, hus, hvs⟩ := List.map_eq_append_iff.mp hts
    obtain ⟨⟨t, l⟩, ws, rfl, ht, hws⟩ := List.map_eq_cons_iff.mp hvs
    subst ht
    obtain ⟨s', hs', heq⟩ := Statement.written s hss.1 us hus
    obtain ⟨ss', hss', heqs⟩ := Statement.written_all (s₂ :: ss) hss.2 ws hws
    have hrest : Sequence ((.newLine, l) :: ws) ss' := .separators (n := [(.newLine, l)]) (by simp [Separators, isSeparator]) hss'
    refine ⟨s' :: ss', ?_, (congrArg (· :: _) heq).trans (congrArg (_ :: ·) heqs)⟩
    simpa using Sequence.step (n := []) nofun hs' (by rintro p ⟨⟩; rfl) hrest

theorem Statement.written_optional (otherwise : Option (List Statement))
    (ho : Statement.optionalWellFormed otherwise = true) (ts : List Placed)
    (hts : ts.map Prod.fst = Statement.tokensOptional .printed otherwise) :
    ∃ otherwise', Branches ts [] otherwise' ∧
      Statement.unplacedOptional otherwise' = Statement.unplacedOptional otherwise := by
  match otherwise with
  | none =>
    obtain rfl := List.map_eq_nil_iff.mp hts
    exact ⟨none, .done, rfl⟩
  | some body =>
    rw [Statement.optionalWellFormed] at ho
    obtain ⟨⟨t, l⟩, us, rfl, ht, hus⟩ := List.map_eq_cons_iff.mp hts
    subst ht
    obtain ⟨body', hbody', heq⟩ := block_written hus (Statement.written_all body ho)
    exact ⟨some body', .otherwise (n := []) nofun hbody', by simp only [Statement.unplacedOptional, heq]⟩

theorem Statement.written_branches (bs : List (Expr × List Statement)) (hbs : Statement.branchesWellFormed bs = true)
    (otherwise : Option (List Statement))
    (ho : ∀ us : List Placed, us.map Prod.fst = Statement.tokensOptional .printed otherwise →
      ∃ otherwise', Branches us [] otherwise' ∧
        Statement.unplacedOptional otherwise' = Statement.unplacedOptional otherwise)
    (ts : List Placed) (hts : ts.map Prod.fst =
      Statement.tokensBranches .printed [.keyword .else, .keyword .if] bs ++ Statement.tokensOptional .printed otherwise) :
    ∃ bs' otherwise', Branches ts bs' otherwise' ∧
      Statement.unplacedBranches bs' = Statement.unplacedBranches bs ∧
      Statement.unplacedOptional otherwise' = Statement.unplacedOptional otherwise := by
  match bs with
  | [] =>
    obtain ⟨otherwise', ho', heq⟩ := ho ts hts
    exact ⟨[], otherwise', ho', rfl, heq⟩
  | (c, body) :: bs =>
    rw [Statement.branchesWellFormed, Bool.and_eq_true, Bool.and_eq_true] at hbs
    simp only [Statement.tokensBranches, List.append_assoc, List.cons_append, List.nil_append] at hts
    obtain ⟨⟨t, l⟩, us, rfl, ht, hus⟩ := List.map_eq_cons_iff.mp hts
    obtain ⟨⟨t', l'⟩, vs, rfl, ht', hvs⟩ := List.map_eq_cons_iff.mp hus
    obtain ⟨cs, ws, rfl, hcs, hws⟩ := List.map_eq_append_iff.mp hvs
    obtain ⟨ds, xs, rfl, hds, hxs⟩ := List.map_eq_append_iff.mp hws
    subst ht ht'
    obtain ⟨c', hc', heqc⟩ := Expr.written c hbs.1.1 0 (Nat.zero_le _) cs hcs
    obtain ⟨body', hbody', heqb⟩ := block_written hds (Statement.written_all body hbs.1.2)
    obtain ⟨bs', otherwise', hbs', heqbs, heqo⟩ := Statement.written_branches bs hbs.2 otherwise ho xs hxs
    refine ⟨(c', body') :: bs', otherwise', ?_, ?_, heqo⟩
    · rw [← List.append_assoc]
      exact .elseIf (n := []) nofun hc' hbody' hbs'
    · simp only [Statement.unplacedBranches, heqc, heqb, heqbs]

theorem Statement.written_handlers (hs : List (Handler Statement)) (hhs : Statement.handlersWellFormed hs = true)
    (ts : List Placed) (hts : ts.map Prod.fst = Statement.tokensHandlers .printed hs) :
    ∃ hs', Handlers ts hs' ∧ Statement.unplacedHandlers hs' = Statement.unplacedHandlers hs := by
  match hs with
  | [] =>
    obtain rfl := List.map_eq_nil_iff.mp hts
    exact ⟨[], .done, rfl⟩
  | ⟨x, line, body⟩ :: hs =>
    rw [Statement.handlersWellFormed, Bool.and_eq_true] at hhs
    obtain ⟨⟨t, l⟩, us, rfl, ht, hus⟩ := List.map_eq_cons_iff.mp hts
    obtain ⟨⟨t', l'⟩, vs, rfl, ht', hvs⟩ := List.map_eq_cons_iff.mp hus
    obtain ⟨ds, ws, rfl, hds, hws⟩ := List.map_eq_append_iff.mp hvs
    subst ht ht'
    obtain ⟨body', hbody', heqb⟩ := block_written hds (Statement.written_all body hhs.1)
    obtain ⟨hs', hhs', heqs⟩ := Statement.written_handlers hs hhs.2 ws hws
    exact ⟨_, .step (n := []) nofun hbody' hhs', by simp only [Statement.unplacedHandlers, heqb, heqs]⟩

end

/-- A well-formed tree is read back from its printed form, whatever the lines of the tokens are. -/
theorem Program.ofTokens_printed {p : Program} (hp : p.isWellFormed = true) {ts : List Placed}
    (hts : ts.map Prod.fst = p.tokens .printed) :
    ∃ q, Program.ofTokens ts = .ok q ∧ q.unplaced = p.unplaced := by
  obtain ⟨q, hq, heq⟩ := Statement.written_all p hp ts hts
  exact ⟨q, Program.ofTokens_of_sequence hq, heq⟩

/-- Each kind of operator, an operand in parentheses on each side, and nested statements. -/
theorem Program.ofTokens_printed_nested :
    let minus : Expr := .unary 1 .negate (.var 1 "a")
    let difference : Expr := .binary 1 .sub (.var 1 "b") (.binary 1 .sub (.var 1 "c") minus)
    let p : Program :=
      [.declare 1 "x" (.binary 1 .mul (.binary 1 .power minus minus) difference),
       .choice 2
         [(.unary 2 .not (.binary 2 .equal difference (.unary 2 .not minus)),
           [.compound 3 "x" .add (.field 3 (.index 3 difference minus) 2), .raise 3 "stop"]),
          (.call 4 "bool" [difference, minus], [])]
         (some [.attempt 5 [.each 5 "i" (.range minus difference true) [.expression 5 minus]]
           [⟨"any", 6, [.assign 6 "x" (.member 6 minus (.setField 1) [])]⟩]])]
    p.isWellFormed = true ∧
      ∃ q, Program.ofTokens ((p.tokens .printed).map (·, 7)) = .ok q ∧ q.unplaced = p.unplaced :=
  ⟨by decide +kernel, Program.ofTokens_printed (by decide +kernel) (by rw [List.map_map]; exact List.map_id _)⟩

end Crunch
