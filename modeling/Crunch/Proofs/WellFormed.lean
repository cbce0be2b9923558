import Crunch.Proofs.Derivation
import Crunch.Proofs.RoundTrip
import Mathlib

/-!
# Crunch.Proofs.WellFormed

What holds of the tree of every script.

* `Grammar.Expression.isWellFormed`, `Grammar.Sequence.isWellFormed`: each rule of the grammar makes
  a well-formed tree from well-formed parts.
* `Program.isWellFormed_of_ofTokens`: so every script that is read has a well-formed tree.
* `Program.isWellFormed_iff`: there is nothing else to say of these trees. But for the lines, every
  well-formed tree is that of a script.
-/

namespace Crunch

open Parse

/-! ## Parts of a rule -/

/-- A positive integer is the position of a field. -/
theorem isPosition_toNat {n : Int64} (h : 0 < n.toInt) : isPosition n.toInt.toNat = true := by
  have hlt := n.toInt_lt
  rw [isPosition, Bool.and_eq_true, decide_eq_true_eq, decide_eq_true_eq, Nat.pow_eq]
  omega

theorem isCompound_of_assignment {t : Token} {op : BinaryOp} (h : assignment? t = some (some op)) :
    op.isCompound = true := by
  unfold assignment? at h
  split at h <;> cases h <;> rfl

namespace Grammar

theorem Method.isWellFormed {ms : List Placed} {m : Member} (h : Method ms m) : m.isWellFormed = true := by
  cases h with
  | named => rfl
  | setField hn => exact isPosition_toNat hn

/-! ## Expressions -/

-- Of the left part of a chain only the tree is left, so `Further` and `Postfixes` carry it through.
mutual

theorem Expression.isWellFormed {l : Nat} {ts : List Placed} {e : Expr} (h : Expression l ts e) :
    e.isWellFormed = true := by
  match h with
  | .chain _ _ ha hus => exact hus.isWellFormed ha.isWellFormed
  | .not he => exact he.isWellFormed
  | .plain he => exact he.isWellFormed
  | .sign _ he => exact he.isWellFormed
  | .unsigned he => exact he.isWellFormed
  | .power ha _ hb => exact Bool.and_eq_true_iff.mpr ⟨ha.isWellFormed, hb.isWellFormed⟩
  | .operand he => exact he.isWellFormed
  | .postfixed ha hus => exact hus.isWellFormed ha.isWellFormed

theorem Further.isWellFormed {l : Nat} {a e : Expr} {ts : List Placed} (h : Further l a ts e)
    (ha : a.isWellFormed = true) : e.isWellFormed = true := by
  match h with
  | .done => exact ha
  | .step _ _ _ hb hus => exact hus.isWellFormed (Bool.and_eq_true_iff.mpr ⟨ha, hb.isWellFormed⟩)

theorem Primary.isWellFormed {ts : List Placed} {e : Expr} (h : Primary ts e) : e.isWellFormed = true := by
  match h with
  | .constant _ => rfl
  | .var => rfl
  | .call hes => exact hes.areWellFormed
  | .group _ he _ => exact he.isWellFormed
  | .collection hes => exact hes.areWellFormed

theorem Postfixes.isWellFormed {a e : Expr} {ts : List Placed} (h : Postfixes a ts e)
    (ha : a.isWellFormed = true) : e.isWellFormed = true := by
  match h with
  | .done => exact ha
  | .index hi hus => exact hus.isWellFormed (Bool.and_eq_true_iff.mpr ⟨ha, hi.isWellFormed⟩)
  | .field hn hus => exact hus.isWellFormed (Bool.and_eq_true_iff.mpr ⟨ha, isPosition_toNat hn⟩)
  | .member hm hes hus =>
    have hreceiver := Bool.and_eq_true_iff.mpr ⟨ha, hm.isWellFormed⟩
    exact hus.isWellFormed (Bool.and_eq_true_iff.mpr ⟨hreceiver, hes.areWellFormed⟩)

theorem Items.areWellFormed {c : Mark} {ts : List Placed} {es : List Expr} (h : Items c ts es) :
    Expr.areWellFormed es = true := by
  match h with
  | .none _ => rfl
  | .last _ he _ => exact Bool.and_eq_true_iff.mpr ⟨he.isWellFormed, rfl⟩
  | .more _ he _ hes => exact Bool.and_eq_true_iff.mpr ⟨he.isWellFormed, hes.areWellFormed⟩

end

/-! ## Statements -/

theorem Range.isWellFormed {ts : List Placed} {src : Source} (h : Range ts src) : src.isWellFormed = true := by
  cases h with
  | elements he => exact he.isWellFormed
  | exclusive ha hb => exact Bool.and_eq_true_iff.mpr ⟨ha.isWellFormed, hb.isWellFormed⟩
  | inclusive ha hb => exact Bool.and_eq_true_iff.mpr ⟨ha.isWellFormed, hb.isWellFormed⟩

mutual

theorem Sentence.isWellFormed {ts : List Placed} {s : Statement} (h : Sentence ts s) : s.isWellFormed = true := by
  match h with
  | .expression he => exact he.isWellFormed
  | .declare hs he | .assign hs he =>
    simp only [Statement.isWellFormed, hs, he.isWellFormed, Bool.not_false, Bool.and_self]
  | .compound hop hs he =>
    simp only [Statement.isWellFormed, hs, isCompound_of_assignment hop, he.isWellFormed, Bool.not_false,
      Bool.and_self]
  | .choice hc hbody hbs =>
    obtain ⟨hbranches, hotherwise⟩ := hbs.areWellFormed
    simp only [Statement.isWellFormed, Statement.branchesWellFormed, List.isEmpty_cons, hc.isWellFormed,
      hbody.areWellFormed, hbranches, hotherwise, Bool.not_false, Bool.and_self]
  | .loop hc hbody => exact Bool.and_eq_true_iff.mpr ⟨hc.isWellFormed, hbody.areWellFormed⟩
  | .each hs hsrc hbody =>
    simp only [Statement.isWellFormed, hs, hsrc.isWellFormed, hbody.areWellFormed, Bool.not_false, Bool.and_self]
  | .raise => rfl
  | .attempt hbody hhs =>
    simp only [Statement.isWellFormed, List.isEmpty_cons, hbody.areWellFormed, hhs.areWellFormed, Bool.not_false,
      Bool.and_self]
  | .load => rfl

theorem Branches.areWellFormed {ts : List Placed} {bs : List (Expr × List Statement)}
    {otherwise : Option (List Statement)} (h : Branches ts bs otherwise) :
    Statement.branchesWellFormed bs = true ∧ Statement.optionalWellFormed otherwise = true := by
  match h with
  | .done => exact ⟨rfl, rfl⟩
  | .elseIf _ hc hbody hbs =>
    obtain ⟨hbranches, hotherwise⟩ := hbs.areWellFormed
    have hbranch := Bool.and_eq_true_iff.mpr ⟨hc.isWellFormed, hbody.areWellFormed⟩
    exact ⟨Bool.and_eq_true_iff.mpr ⟨hbranch, hbranches⟩, hotherwise⟩
  | .otherwise _ hbody => exact ⟨rfl, hbody.areWellFormed⟩

theorem Handlers.areWellFormed {ts : List Placed} {hs : List (Handler Statement)} (h : Handlers ts hs) :
    Statement.handlersWellFormed hs = true := by
  match h with
  | .done => rfl
  | .step _ hbody hhs => exact Bool.and_eq_true_iff.mpr ⟨hbody.areWellFormed, hhs.areWellFormed⟩

theorem Block.areWellFormed {ts : List Placed} {body : List Statement} (h : Block ts body) :
    Statement.areWellFormed body = true := by
  match h with
  | .braces hbody => exact hbody.areWellFormed

theorem Sequence.areWellFormed {ts : List Placed} {ss : List Statement} (h : Sequence ts ss) :
    Statement.areWellFormed ss = true := by
  match h with
  | .done _ => rfl
  | .step _ hs _ hss => exact Bool.and_eq_true_iff.mpr ⟨hs.isWellFormed, hss.areWellFormed⟩

end

end Grammar

/-! ## Trees without lines -/

mutual

theorem Expr.isWellFormed_unplaced (e : Expr) : e.unplaced.isWellFormed = e.isWellFormed := by
  match e with
  | .constant _ _ | .var _ _ => rfl
  | .unary _ _ e => exact e.isWellFormed_unplaced
  | .binary _ _ a b | .index _ a b =>
    simp only [Expr.unplaced, Expr.isWellFormed, a.isWellFormed_unplaced, b.isWellFormed_unplaced]
  | .call _ _ es | .collection _ es => exact Expr.areWellFormed_unplaced es
  | .member _ a _ es =>
    simp only [Expr.unplaced, Expr.isWellFormed, a.isWellFormed_unplaced, Expr.areWellFormed_unplaced es]
  | .field _ a _ => simp only [Expr.unplaced, Expr.isWellFormed, a.isWellFormed_unplaced]

theorem Expr.areWellFormed_unplaced (es : List Expr) :
    Expr.areWellFormed (Expr.unplacedAll es) = Expr.areWellFormed es := by
  match es with
  | [] => rfl
  | e :: es =>
    simp only [Expr.unplacedAll, Expr.areWellFormed, e.isWellFormed_unplaced, Expr.areWellFormed_unplaced es]

end

theorem Source.isWellFormed_unplaced (src : Source) : src.unplaced.isWellFormed = src.isWellFormed := by
  cases src with
  | elements e => exact e.isWellFormed_unplaced
  | range a b _ =>
    simp only [Source.unplaced, Source.isWellFormed, a.isWellFormed_unplaced, b.isWellFormed_unplaced]

theorem isEmpty_unplacedBranches (bs : List (Expr × List Statement)) :
    (Statement.unplacedBranches bs).isEmpty = bs.isEmpty := by
  cases bs with
  | nil => rfl
  | cons _ _ => rfl

theorem isEmpty_unplacedHandlers (hs : List (Handler Statement)) :
    (Statement.unplacedHandlers hs).isEmpty = hs.isEmpty := by
  cases hs with
  | nil => rfl
  | cons _ _ => rfl

mutual

theorem Statement.isWellFormed_unplaced (s : Statement) : s.unplaced.isWellFormed = s.isWellFormed := by
  match s with
  | .expression _ e => exact e.isWellFormed_unplaced
  | .declare _ _ e | .assign _ _ e | .compound _ _ _ e =>
    simp only [Statement.unplaced, Statement.isWellFormed, e.isWellFormed_unplaced]
  | .choice _ bs otherwise =>
    simp only [Statement.unplaced, Statement.isWellFormed, isEmpty_unplacedBranches,
      Statement.branchesWellFormed_unplaced bs, Statement.optionalWellFormed_unplaced otherwise]
  | .loop _ c body =>
    simp only [Statement.unplaced, Statement.isWellFormed, c.isWellFormed_unplaced,
      Statement.areWellFormed_unplaced body]
  | .each _ _ src body =>
    simp only [Statement.unplaced, Statement.isWellFormed, src.isWellFormed_unplaced,
      Statement.areWellFormed_unplaced body]
  | .attempt _ body hs =>
    simp only [Statement.unplaced, Statement.isWellFormed, isEmpty_unplacedHandlers,
      Statement.areWellFormed_unplaced body, Statement.handlersWellFormed_unplaced hs]
  | .raise _ _ | .load _ _ => rfl

theorem Statement.areWellFormed_unplaced (ss : List Statement) :
    Statement.areWellFormed (Statement.unplacedAll ss) = Statement.areWellFormed ss := by
  match ss with
  | [] => rfl
  | s :: ss =>
    simp only [Statement.unplacedAll, Statement.areWellFormed, s.isWellFormed_unplaced,
      Statement.areWellFormed_unplaced ss]

theorem Statement.branchesWellFormed_unplaced (bs : List (Expr × List Statement)) :
    Statement.branchesWellFormed (Statement.unplacedBranches bs) = Statement.branchesWellFormed bs := by
  match bs with
  | [] => rfl
  | (c, body) :: bs =>
    simp only [Statement.unplacedBranches, Statement.branchesWellFormed, c.isWellFormed_unplaced,
      Statement.areWellFormed_unplaced body, Statement.branchesWellFormed_unplaced bs]

theorem Statement.optionalWellFormed_unplaced (otherwise : Option (List Statement)) :
    Statement.optionalWellFormed (Statement.unplacedOptional otherwise) = Statement.optionalWellFormed otherwise := by
  match otherwise with
  | none => rfl
  | some body => exact Statement.areWellFormed_unplaced body

theorem Statement.handlersWellFormed_unplaced (hs : List (Handler Statement)) :
    Statement.handlersWellFormed (Statement.unplacedHandlers hs) = Statement.handlersWellFormed hs := by
  match hs with
  | [] => rfl
  | ⟨_, _, body⟩ :: hs =>
    simp only [Statement.unplacedHandlers, Statement.handlersWellFormed, Statement.areWellFormed_unplaced body,
      Statement.handlersWellFormed_unplaced hs]

end

/-! ## Scripts -/

/-- Every script that is read has a well-formed tree. -/
theorem Program.isWellFormed_of_ofTokens {ts : List Placed} {p : Program} (h : Program.ofTokens ts = .ok p) :
    p.isWellFormed = true :=
  (Program.sequence_of_ofTokens h).areWellFormed

/-- A field and a compound assignment in a handled block, inside of a branch and a loop. -/
theorem Program.isWellFormed_of_ofTokens_nested :
    let ts : List Placed :=
      [(.keyword .for, 1), (.identifier "t", 1), (.keyword .in, 1), (.identifier "rows", 1), (.keyword .do, 1),
        (.mark .lBrace, 1), (.newLine, 1),
        (.keyword .if, 2), (.identifier "ready", 2), (.keyword .do, 2), (.mark .lBrace, 2),
        (.keyword .try, 3), (.keyword .do, 3), (.mark .lBrace, 3), (.identifier "n", 3), (.mark .plusAssign, 3),
        (.identifier "t", 3), (.mark .at, 3), (.integer 2, 3), (.mark .rBrace, 3),
        (.keyword .catch, 4), (.identifier "any", 4), (.keyword .do, 4), (.mark .lBrace, 4), (.mark .rBrace, 4),
        (.mark .rBrace, 5), (.newLine, 5), (.mark .rBrace, 6)]
    let p : Program :=
      [.each 1 "t" (.elements (.var 1 "rows"))
        [.choice 2
          [(.var 2 "ready",
            [.attempt 3 [.compound 3 "n" .add (.field 3 (.var 3 "t") 2)] [⟨"any", 4, []⟩]])] none]]
    Program.ofTokens ts = .ok p ∧ p.isWellFormed = true := by
  intro ts p
  have hts : Program.ofTokens ts = .ok p := by cbv
  exact ⟨hts, isWellFormed_of_ofTokens hts⟩

/-- But for the lines, the well-formed trees are those of the scripts that are read. -/
theorem Program.isWellFormed_iff {p : Program} :
    p.isWellFormed = true ↔ ∃ ts q, Program.ofTokens ts = .ok q ∧ q.unplaced = p.unplaced := by
  constructor
  · intro hp
    obtain ⟨q, hq, heq⟩ := Statement.written_all p hp ((p.tokens .printed).map (·, 1))
      (by rw [List.map_map]; exact List.map_id _)
    exact ⟨_, q, Program.ofTokens_of_sequence hq, heq⟩
  · rintro ⟨ts, q, hq, heq⟩
    have hwf : Statement.areWellFormed q = true := (Program.sequence_of_ofTokens hq).areWellFormed
    rw [Program.isWellFormed, ← Statement.areWellFormed_unplaced, ← Program.unplaced, ← heq, Program.unplaced,
      Statement.areWellFormed_unplaced, hwf]

end Crunch
