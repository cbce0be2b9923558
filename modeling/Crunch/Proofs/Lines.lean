import Crunch.Proofs.Spelling

/-!
# Crunch.Proofs.Lines

Every token stands on its line.

* `Scan.cut`: the stretches that a text is cut into, tokens and what stands between them, each with the number of
  characters before it.
* `Scan.newLine_mem_scan`: of what a script is read as, only the line break and block comments hold a line end.
* `Scan.placed_of_tokensFrom`, `Scan.breaks_eq`: the tokens are those of the stretches, and the line breaks stand at
  the line ends outside block comments.
* `tokens_on_their_lines`: this for whole scripts.
* `line_of_token`, `line_of_rejection`: the lines of tokens, and of a text that is no token, are lines of the script.
-/

namespace Crunch
namespace Scan

variable {c : Char} {cs rest text : List Char} {l : Lexeme} {n start line : Nat} {ts : List Placed}

/-! ## Stretches of a text -/

/-- A part of a text: what it is, how many characters stand before it, and its own characters. -/
structure Stretch where
  lexeme : Lexeme
  start : Nat
  text : List Char

/-- The stretches of a text with `start` characters before it, up to its end. -/
def cut (start : Nat) : List Char → List Stretch
  | [] => []
  | c :: rest =>
    let (l, n) := scan c rest
    ⟨l, start, c :: rest.take n⟩ :: cut (start + (rest.take n).length + 1) (rest.drop n)
termination_by cs => cs.length
decreasing_by all_goals simp only [List.length_cons, List.length_drop]; omega

/-- The line on which the character after the first `i` stands. -/
def lineAt (text : List Char) (i : Nat) : Nat := 1 + lineEnds (text.take i)

namespace Stretch

/-- A block comment, which is a gap that a slash and a star open. -/
def isComment (p : Stretch) : Bool := p.lexeme = .gap ∧ ['/', '*'] <+: p.text

def covers (p : Stretch) (i : Nat) : Bool := p.start ≤ i ∧ i < p.start + p.text.length

/-- The token that a stretch of `text` is, with the line of its first character. -/
def placed (text : List Char) (p : Stretch) : Option Placed :=
  match p.lexeme with
  | .token t => some (t, lineAt text p.start)
  | .gap | .bad => none

/-- What is read where the stretch starts, with the characters that this takes. -/
def Read (text : List Char) (p : Stretch) : Prop :=
  ∃ c rest n, text.drop p.start = c :: rest ∧ scan c rest = (p.lexeme, n) ∧ p.text = c :: rest.take n

end Stretch

/-- Whether a place is in a block comment. -/
def inComment (ps : List Stretch) (i : Nat) : Bool := ps.any fun p => p.isComment && p.covers i

/-- The places of the line ends outside block comments. -/
def breaks (text : List Char) : List Nat := (text.findIdxs (· == '\n')).filter fun i => !inComment (cut 0 text) i

theorem cut_nil : cut start [] = [] := by rw [cut.eq_def]

theorem cut_cons (h : scan c rest = (l, n)) :
    cut start (c :: rest) =
      ⟨l, start, c :: rest.take n⟩ :: cut (start + (c :: rest.take n).length) (rest.drop n) := by
  rw [cut.eq_def]
  simp only [h]
  rfl

/-- Along a text, what is read is cut off its front. -/
theorem cut_induction {motive : Nat → List Char → Prop} (nil : ∀ start, motive start [])
    (cons : ∀ start c rest l n, scan c rest = (l, n) →
      motive (start + (c :: rest.take n).length) (rest.drop n) → motive start (c :: rest))
    (start : Nat) (cs : List Char) : motive start cs := by
  induction hlen : cs.length using Nat.strongRecOn generalizing start cs with
  | ind len ih =>
    subst hlen
    cases cs with
    | nil => exact nil start
    | cons c rest =>
      refine cons start c rest _ _ rfl (ih _ ?_ _ _ rfl)
      simp only [List.length_cons, List.length_drop]
      omega

theorem flatMap_cut (start : Nat) (cs : List Char) : (cut start cs).flatMap Stretch.text = cs := by
  induction start, cs using cut_induction with
  | nil start => rw [cut_nil, List.flatMap_nil]
  | cons start c rest l n h ih => rw [cut_cons h, List.flatMap_cons, ih, List.cons_append, List.take_append_drop]

theorem start_le_of_mem_cut {p : Stretch} (h : p ∈ cut start cs) : start ≤ p.start := by
  induction start, cs using cut_induction with
  | nil start =>
    rw [cut_nil] at h
    cases h
  | cons start c rest l n hs ih =>
    rw [cut_cons hs] at h
    obtain rfl | h := List.mem_cons.mp h
    · exact le_rfl
    · exact (Nat.le_add_right _ _).trans (ih h)

/-- Every stretch is what is read at its place. -/
theorem read_of_mem_cut {p : Stretch} (h : p ∈ cut start cs) (hcs : text.drop start = cs) : p.Read text := by
  induction start, cs using cut_induction with
  | nil start =>
    rw [cut_nil] at h
    cases h
  | cons start c rest l n hs ih =>
    rw [cut_cons hs] at h
    obtain rfl | h := List.mem_cons.mp h
    · exact ⟨c, rest, n, hcs, hs, rfl⟩
    · refine ih h ?_
      rw [← List.drop_drop, hcs, List.length_cons, List.drop_succ_cons, List.length_take]
      obtain hn | hn := Nat.le_total n rest.length
      · rw [Nat.min_eq_left hn]
      · rw [Nat.min_eq_right hn, List.drop_length, List.drop_eq_nil_of_le hn]

/-! ## Line ends within what is read -/

theorem take_length_takeWhile (p : Char → Bool) (cs : List Char) :
    cs.take (cs.takeWhile p).length = cs.takeWhile p :=
  (List.prefix_iff_eq_take.mp (List.takeWhile_prefix p)).symm

theorem newLine_notMem_takeWhile {p : Char → Bool} (hp : p '\n' = false) (cs : List Char) :
    '\n' ∉ cs.takeWhile p := by
  intro hmem
  rw [List.mem_takeWhile_imp hmem] at hp
  cases hp

theorem newLine_notMem_take_takeWhile {p : Char → Bool} (hp : p '\n' = false) (cs : List Char) :
    '\n' ∉ cs.take (cs.takeWhile p).length := by
  rw [take_length_takeWhile]
  exact newLine_notMem_takeWhile hp cs

theorem newLine_notMem_fraction (cs : List Char) : '\n' ∉ cs.take (fractionWidth cs) := by
  unfold fractionWidth
  split
  · rename_i rest
    rcases hn : (rest.takeWhile Decimal.isDigit).length with _ | n
    · exact List.not_mem_nil
    · change '\n' ∉ '.' :: rest.take (n + 1)
      rw [← hn]
      exact List.not_mem_cons_of_ne_of_not_mem (by decide) (newLine_notMem_take_takeWhile rfl rest)
  · exact List.not_mem_nil

theorem newLine_notMem_exponent (cs : List Char) : '\n' ∉ cs.take (exponentWidth cs) := by
  unfold exponentWidth
  split
  · rename_i e rest
    split
    · rename_i he
      have hletter : '\n' ≠ e := by rcases he with rfl | rfl <;> decide
      split
      rename_i sign ds hsign
      rcases hn : (ds.takeWhile Decimal.isDigit).length with _ | n
      · exact List.not_mem_nil
      · have hdigits := newLine_notMem_take_takeWhile (p := Decimal.isDigit) rfl ds
        rw [hn] at hdigits
        change '\n' ∉ (e :: rest).take (1 + sign + (n + 1))
        rw [Nat.add_assoc, Nat.add_comm 1, List.take_succ_cons]
        refine List.not_mem_cons_of_ne_of_not_mem hletter ?_
        split at hsign <;> cases hsign
        · rw [Nat.add_comm 1, List.take_succ_cons]
          exact List.not_mem_cons_of_ne_of_not_mem (by decide) hdigits
        · rw [Nat.add_comm 1, List.take_succ_cons]
          exact List.not_mem_cons_of_ne_of_not_mem (by decide) hdigits
        · rw [Nat.zero_add]
          exact hdigits
    · exact List.not_mem_nil
  · exact List.not_mem_nil

/-- What is read is no line break, and its characters hold no line end. -/
structure Plain (cs : List Char) (read : Lexeme × Nat) : Prop where
  lexeme : read.1 ≠ .token .newLine
  text : '\n' ∉ cs.take read.2

theorem orBad_ne_newLine {α : Type} {f : α → Token} (hf : ∀ a, f a ≠ .newLine) (o : Option α) :
    orBad (o.map f) ≠ .token .newLine := by
  cases o with
  | none => nofun
  | some a => exact fun h => hf a (Lexeme.token.inj h)

theorem plain_decimalNumber (cs : List Char) : Plain cs (decimalNumber cs) := by
  have htext : '\n' ∉ cs.take ((cs.takeWhile Decimal.isDigit).length +
      fractionWidth (cs.drop (cs.takeWhile Decimal.isDigit).length) +
      exponentWidth (cs.drop ((cs.takeWhile Decimal.isDigit).length +
        fractionWidth (cs.drop (cs.takeWhile Decimal.isDigit).length)))) := by
    rw [List.take_add, List.take_add, List.mem_append, List.mem_append, not_or, not_or]
    exact ⟨⟨newLine_notMem_take_takeWhile rfl cs, newLine_notMem_fraction _⟩, newLine_notMem_exponent _⟩
  unfold decimalNumber
  dsimp only
  split
  · rename_i rest hdrop
    refine ⟨orBad_ne_newLine nofun _, ?_⟩
    rw [List.take_add, List.mem_append, not_or, hdrop]
    exact ⟨htext, List.not_mem_cons_of_ne_of_not_mem (by decide) List.not_mem_nil⟩
  · split
    · exact ⟨orBad_ne_newLine nofun _, htext⟩
    · exact ⟨orBad_ne_newLine nofun _, htext⟩

theorem plain_number (cs : List Char) : Plain cs (number cs) := by
  unfold number
  split
  · rename_i x rest
    dsimp only
    split
    · rename_i hx
      have hletter : '\n' ≠ x := by rcases hx.1 with rfl | rfl <;> decide
      refine ⟨orBad_ne_newLine nofun _, ?_⟩
      rw [Nat.add_comm 2, List.take_succ_cons, List.take_succ_cons]
      exact List.not_mem_cons_of_ne_of_not_mem (by decide)
        (List.not_mem_cons_of_ne_of_not_mem hletter (newLine_notMem_take_takeWhile rfl rest))
    · exact plain_decimalNumber _
  · exact plain_decimalNumber _

theorem newLine_notMem_body (cs : List Char) : '\n' ∉ cs.take (bodyWidth cs) := by
  induction cs using bodyWidth.induct with
  | case1 => exact List.not_mem_nil
  | case2 => exact List.not_mem_nil
  | case3 rest => exact List.not_mem_nil
  | case4 e rest he ih =>
    rw [bodyWidth_escape he, List.take_succ_cons, List.take_succ_cons]
    exact List.not_mem_cons_of_ne_of_not_mem (by decide) (List.not_mem_cons_of_ne_of_not_mem (Ne.symm he) ih)
  | case5 c rest hb hstop =>
    rw [bodyWidth.eq_def]
    simp only [if_neg hb, if_pos hstop]
    exact List.not_mem_nil
  | case6 c rest hb hgo ih =>
    obtain ⟨hq, hn⟩ := not_or.mp hgo
    rw [bodyWidth_plain hb hq hn, List.take_succ_cons]
    exact List.not_mem_cons_of_ne_of_not_mem (Ne.symm hn) ih

theorem plain_string (cs : List Char) : Plain cs (string cs) := by
  unfold string
  dsimp only
  split
  · rename_i rest hdrop
    refine ⟨orBad_ne_newLine nofun _, ?_⟩
    rw [List.take_add, List.mem_append, not_or, hdrop]
    exact ⟨newLine_notMem_body cs, List.not_mem_cons_of_ne_of_not_mem (by decide) List.not_mem_nil⟩
  · exact ⟨nofun, newLine_notMem_body cs⟩

theorem plain_character (cs : List Char) : Plain cs (character cs) := by
  unfold character
  split
  · rename_i e rest
    split
    · exact ⟨nofun, List.not_mem_nil⟩
    · rename_i he
      refine ⟨orBad_ne_newLine nofun _, ?_⟩
      simp only [List.take_succ_cons, List.take_zero, List.mem_cons, List.not_mem_nil, or_false, not_or]
      exact ⟨by decide, Ne.symm he, by decide⟩
  · rename_i c rest _
    split
    · exact ⟨nofun, List.not_mem_nil⟩
    · rename_i hc
      refine ⟨nofun, ?_⟩
      simp only [List.take_succ_cons, List.take_zero, List.mem_cons, List.not_mem_nil, or_false, not_or]
      exact ⟨fun h => hc (.inr (.inr h.symm)), by decide⟩
  · exact ⟨nofun, List.not_mem_nil⟩

theorem newLine_notMem_mark {m : Mark} (h : mark? c rest = some (m, n)) : '\n' ∉ rest.take n := by
  unfold mark? at h
  split at h <;> cases h <;> simp

theorem Plain.cons (hl : l ≠ .token .newLine) (hc : c ≠ '\n') (hrest : '\n' ∉ rest.take n) :
    Plain (c :: rest) (l, n + 1) where
  lexeme := hl
  text := by
    change '\n' ∉ (c :: rest).take (n + 1)
    rw [List.take_succ_cons]
    exact List.not_mem_cons_of_ne_of_not_mem (Ne.symm hc) hrest

/-- Whatever is read is plain, or the line break, or a block comment, or no token at all. -/
theorem scan_cases (h : scan c rest = (l, n)) :
    Plain (c :: rest) (l, n + 1) ∨ l = .token .newLine ∧ c = '\n' ∧ n = 0 ∨
      l = .gap ∧ ['/', '*'] <+: c :: rest.take n ∨ l = .bad := by
  -- The branches of `scan` in their order, each with what its first character rules out.
  unfold scan at h
  split at h
  case isTrue hnumber =>
    have hc : c ≠ '\n' := by
      rintro rfl
      exact Bool.false_ne_true hnumber
    have hplain := plain_number (c :: rest)
    rcases hread : number (c :: rest) with ⟨l', w⟩
    rw [hread] at h hplain
    cases h
    refine .inl (.cons hplain.lexeme hc fun hmem => hplain.text ?_)
    cases w with
    | zero => cases hmem
    | succ w => exact List.mem_cons_of_mem c hmem
  case isFalse =>
  split at h
  case isTrue hname =>
    have hc : c ≠ '\n' := by
      rintro rfl
      exact Bool.false_ne_true hname
    cases h
    exact .inl (.cons (fun h => ofWord_ne_newLine _ (Lexeme.token.inj h)) hc
      (newLine_notMem_take_takeWhile rfl rest))
  case isFalse =>
  split at h
  case isTrue hgap =>
    have hc : c ≠ '\n' := by
      rintro rfl
      exact Bool.false_ne_true hgap
    cases h
    exact .inl (.cons nofun hc (newLine_notMem_take_takeWhile rfl rest))
  case isFalse =>
  split at h
  case isTrue hbreak =>
    cases h
    exact .inr (.inl ⟨rfl, hbreak, rfl⟩)
  case isFalse hbreak =>
  split at h
  case isTrue =>
    have hplain := plain_string rest
    rw [h] at hplain
    exact .inl (.cons hplain.lexeme hbreak hplain.text)
  case isFalse =>
  split at h
  case isTrue =>
    have hplain := plain_character rest
    rw [h] at hplain
    exact .inl (.cons hplain.lexeme hbreak hplain.text)
  case isFalse =>
  split at h
  case h_1 =>
    cases h
    refine .inl (.cons nofun hbreak ?_)
    rw [Nat.add_comm 1, List.take_succ_cons]
    exact List.not_mem_cons_of_ne_of_not_mem (by decide) (newLine_notMem_take_takeWhile rfl _)
  case h_2 =>
    unfold comment at h
    dsimp only at h
    split at h
    · cases h
      exact .inr (.inr (.inl ⟨rfl, _, rfl⟩))
    · cases h
      exact .inr (.inr (.inr rfl))
  case h_3 =>
    split at h
    · rename_i m k hmark
      cases h
      exact .inl (.cons nofun hbreak (newLine_notMem_mark hmark))
    · cases h
      exact .inr (.inr (.inr rfl))

/-! ## The lines of a text -/

/-- A text whose tokens are known is read throughout, and its tokens are those of its stretches. By induction along
the text, where `before` stands before the part that is left. -/
theorem placed_of_tokensFrom (before : List Char) (h : tokensFrom (1 + lineEnds before) cs = .ok ts) :
    (∀ p ∈ cut before.length cs, p.lexeme ≠ .bad) ∧
      ts = (cut before.length cs).filterMap (Stretch.placed (before ++ cs)) := by
  generalize hstart : before.length = start
  induction start, cs using cut_induction generalizing before ts with
  | nil start =>
    rw [tokensFrom_nil] at h
    cases h
    rw [cut_nil]
    exact ⟨List.forall_mem_nil _, rfl⟩
  | cons start c rest l n hs ih =>
    subst hstart
    have hline : 1 + lineEnds before + lineEnds (c :: rest.take n) = 1 + lineEnds (before ++ c :: rest.take n) := by
      rw [lineEnds, lineEnds, lineEnds, List.count_append, Nat.add_assoc]
    have htext : before ++ c :: rest = before ++ c :: rest.take n ++ rest.drop n := by
      rw [List.append_assoc, List.cons_append, List.take_append_drop]
    have hplace : lineAt (before ++ c :: rest) before.length = 1 + lineEnds before := by
      rw [lineAt, List.take_left]
    have ih' {ts : List Placed} := @ih ts (before ++ c :: rest.take n)
    rw [List.length_append] at ih'
    rw [tokensFrom.eq_def] at h
    simp only [hs, hline] at h
    rw [cut_cons hs, htext, List.forall_mem_cons]
    cases l with
    | bad => cases h
    | gap =>
      obtain ⟨hgood, rfl⟩ := ih' h rfl
      exact ⟨⟨by simp, hgood⟩, rfl⟩
    | token t =>
      dsimp only at h
      split at h
      case h_1 ts' hrest =>
        cases h
        obtain ⟨hgood, rfl⟩ := ih' hrest rfl
        refine ⟨⟨by simp, hgood⟩, ?_⟩
        rw [← htext, List.filterMap_cons_some (b := (t, 1 + lineEnds before))]
        rw [Stretch.placed, hplace]
      case h_2 => cases h

/-- A stretch in front of later ones covers its own places, and they cover later places only. -/
theorem breaks_cons (p : Stretch) (ps : List Stretch) (rest : List Char)
    (hlater : ∀ q ∈ ps, p.start + p.text.length ≤ q.start) :
    ((p.text ++ rest).findIdxs (· == '\n') p.start).filter (fun i => !inComment (p :: ps) i) =
      (p.text.findIdxs (· == '\n') p.start).filter (fun _ => !p.isComment) ++
        (rest.findIdxs (· == '\n') (p.start + p.text.length)).filter fun i => !inComment ps i := by
  rw [List.findIdxs_append, List.filter_append]
  congr 1 <;> refine List.filter_congr fun i hi => ?_
  · have hlow : p.start ≤ i := List.ge_of_mem_findIdxs i hi
    have hhigh := List.lt_add_of_mem_findIdxs i hi
    have hothers : inComment ps i = false := by
      refine List.any_eq_false.mpr fun q hq hcovers => ?_
      have hq := hlater q hq
      simp only [Stretch.covers, Bool.and_eq_true, decide_eq_true_eq] at hcovers
      omega
    rw [inComment, List.any_cons, ← inComment, hothers, Bool.or_false, Stretch.covers,
      decide_eq_true ⟨hlow, by omega⟩, Bool.and_true]
  · have hlow := List.ge_of_mem_findIdxs i hi
    rw [inComment, List.any_cons, ← inComment, Stretch.covers, decide_eq_false fun h => by omega, Bool.and_false,
      Bool.false_or]

/-- Of the line ends in what is read, the one outside comments is the line break itself. -/
theorem breaks_scan (hs : scan c rest = (l, n)) (hl : l ≠ .bad) :
    ((c :: rest.take n).findIdxs (· == '\n') start).filter
        (fun _ => !(Stretch.mk l start (c :: rest.take n)).isComment) =
      if l = .token .newLine then [start] else [] := by
  obtain ⟨hbreak, htext⟩ | ⟨rfl, rfl, rfl⟩ | ⟨rfl, hcomment⟩ | hbad := scan_cases hs
  · have hnone : (c :: rest.take n).findIdxs (· == '\n') start = [] :=
      List.findIdxs_eq_nil_iff.mpr fun d hd => beq_eq_false_iff_ne.mpr fun heq => htext (heq ▸ hd)
    rw [hnone, if_neg hbreak]
    rfl
  · rfl
  · have hp : (Stretch.mk .gap start (c :: rest.take n)).isComment = true := decide_eq_true ⟨rfl, hcomment⟩
    rw [hp, if_neg nofun]
    exact List.filter_eq_nil_iff.mpr fun _ _ => Bool.false_ne_true
  · exact absurd hbad hl

/-- The line breaks among the stretches are at the line ends of the text that no comment covers. -/
theorem breaks_cut (hgood : ∀ p ∈ cut start cs, p.lexeme ≠ .bad) :
    (cs.findIdxs (· == '\n') start).filter (fun i => !inComment (cut start cs) i) =
      ((cut start cs).filter (·.lexeme = .token .newLine)).map Stretch.start := by
  induction start, cs using cut_induction with
  | nil start =>
    rw [cut_nil]
    rfl
  | cons start c rest l n hs ih =>
    rw [cut_cons hs] at hgood ⊢
    obtain ⟨hl, hrest⟩ := List.forall_mem_cons.mp hgood
    have hfront := breaks_cons ⟨l, start, c :: rest.take n⟩ (cut (start + (c :: rest.take n).length) (rest.drop n))
      (rest.drop n) fun q hq => start_le_of_mem_cut hq
    rw [List.cons_append, List.take_append_drop] at hfront
    rw [hfront, breaks_scan hs hl, ih hrest, List.filter_cons]
    by_cases hbreak : l = .token .newLine
    · rw [if_pos hbreak, if_pos (decide_eq_true hbreak)]
      rfl
    · rw [if_neg hbreak, if_neg fun h => hbreak (of_decide_eq_true h)]
      rfl

theorem newLines_of_placed (text : List Char) (ps : List Stretch) :
    (ps.filterMap (Stretch.placed text)).filter (·.1 = .newLine) =
      (ps.filter (·.lexeme = .token .newLine)).map fun p => (.newLine, lineAt text p.start) := by
  induction ps with
  | nil => rfl
  | cons p ps ih =>
    rcases p with ⟨l, start, cs⟩
    cases l with
    | token t =>
      change List.filter _ ((t, lineAt text start) :: List.filterMap (Stretch.placed text) ps) = _
      rw [List.filter_cons, List.filter_cons, ih]
      by_cases ht : t = .newLine
      · subst ht
        rfl
      · rw [if_neg fun h => ht (of_decide_eq_true h),
          if_neg fun h => ht (Lexeme.token.inj (of_decide_eq_true h))]
    | gap => exact ih
    | bad => exact ih

theorem lineAt_le (text : List Char) (i : Nat) : 1 ≤ lineAt text i ∧ lineAt text i ≤ 1 + lineEnds text :=
  ⟨Nat.le_add_right _ _, Nat.add_le_add_left ((List.take_sublist i text).count_le _) 1⟩

/-- A text that is no tokens is rejected on one of its lines. -/
theorem line_of_rejected {r : Rejection} (h : tokensFrom line cs = .error r) :
    line ≤ r.line ∧ r.line ≤ line + lineEnds cs := by
  induction hlen : cs.length using Nat.strongRecOn generalizing line cs with
  | ind len ih =>
    subst hlen
    cases cs with
    | nil =>
      rw [tokensFrom_nil] at h
      cases h
    | cons c rest =>
      rcases hs : scan c rest with ⟨l, n⟩
      have hcount : lineEnds (c :: rest) = lineEnds (c :: rest.take n) + lineEnds (rest.drop n) := by
        rw [lineEnds, lineEnds, lineEnds, ← List.count_append, List.cons_append, List.take_append_drop]
      have hshort : (rest.drop n).length < (c :: rest).length := by
        rw [List.length_drop, List.length_cons]
        omega
      rw [tokensFrom.eq_def] at h
      simp only [hs] at h
      cases l with
      | bad =>
        cases h
        exact ⟨le_rfl, Nat.le_add_right _ _⟩
      | gap =>
        have hlater := ih _ hshort h rfl
        omega
      | token t =>
        dsimp only at h
        split at h
        · cases h
        · rename_i hrest
          cases h
          have hlater := ih _ hshort hrest rfl
          omega

end Scan

variable {source : String} {ts : List Placed}

theorem stretches_of_tokenize (h : tokenize source = .ok ts) :
    (∀ p ∈ Scan.cut 0 source.toList, p.lexeme ≠ .bad) ∧
      ts = (Scan.cut 0 source.toList).filterMap (Scan.Stretch.placed source.toList) :=
  Scan.placed_of_tokensFrom [] h

/-- The tokens of a script. What a script is cut into makes up all of it, and each stretch is what is read at its
place. The tokens are those of the stretches, each with one plus the number of line ends before its first character,
and the line breaks among them are, in order, the line ends that stand outside block comments. -/
theorem tokens_on_their_lines (h : tokenize source = .ok ts) :
    (Scan.cut 0 source.toList).flatMap Scan.Stretch.text = source.toList ∧
      (∀ p ∈ Scan.cut 0 source.toList, p.lexeme ≠ .bad ∧ p.Read source.toList) ∧
      ts = (Scan.cut 0 source.toList).filterMap (Scan.Stretch.placed source.toList) ∧
      ts.filter (·.1 = .newLine) =
        (Scan.breaks source.toList).map fun i => (.newLine, Scan.lineAt source.toList i) := by
  obtain ⟨hgood, hts⟩ := stretches_of_tokenize h
  refine ⟨Scan.flatMap_cut 0 _, fun p hp => ⟨hgood p hp, Scan.read_of_mem_cut hp rfl⟩, hts, ?_⟩
  rw [hts, Scan.breaks, Scan.breaks_cut hgood, List.map_map]
  exact Scan.newLines_of_placed _ _

/-- A block comment over two lines, a string that holds what would open one, and a line comment. -/
theorem tokens_on_their_lines_comments :
    tokenize "a /* 1\n */ \"/*\" // b\n\nc" =
        .ok [(.identifier "a", 1), (.str "/*", 2), (.newLine, 2), (.newLine, 3), (.identifier "c", 4)] ∧
      (Scan.breaks "a /* 1\n */ \"/*\" // b\n\nc".toList).map
          (fun i => (Token.newLine, Scan.lineAt "a /* 1\n */ \"/*\" // b\n\nc".toList i)) =
        [(.newLine, 2), (.newLine, 3)] := by
  have h : tokenize "a /* 1\n */ \"/*\" // b\n\nc" =
      .ok [(.identifier "a", 1), (.str "/*", 2), (.newLine, 2), (.newLine, 3), (.identifier "c", 4)] := by cbv
  obtain ⟨-, -, -, hbreaks⟩ := tokens_on_their_lines h
  exact ⟨h, hbreaks.symm⟩

/-- Every token stands on a line of the script. -/
theorem line_of_token (h : tokenize source = .ok ts) : ∀ t ∈ ts, 1 ≤ t.2 ∧ t.2 ≤ 1 + Scan.lineEnds source.toList := by
  obtain ⟨-, rfl⟩ := stretches_of_tokenize h
  intro t ht
  obtain ⟨p, -, hp⟩ := List.mem_filterMap.mp ht
  rcases p with ⟨l, start, cs⟩
  cases l with
  | token u =>
    cases hp
    exact Scan.lineAt_le _ _
  | gap => cases hp
  | bad => cases hp

/-- A script that is no tokens is rejected on one of its lines. -/
theorem line_of_untokenized {r : Rejection} (h : tokenize source = .error r) :
    1 ≤ r.line ∧ r.line ≤ 1 + Scan.lineEnds source.toList :=
  Scan.line_of_rejected h

end Crunch
