import Crunch.Proofs.Check
import Crunch.Proofs.Grammar

/-!
# Crunch.Proofs.Derivation

What is parsed can be derived.

* `Parse.level_derives` and the like: a parser of expressions that succeeds has taken tokens off the
  front, and they are derived by the grammar with the tree that it gives.
* `Parse.statements_derives`: the same for statements up to their end.

Each parser calls others with one unit of fuel less, so one induction on the fuel carries them all.
-/

namespace Crunch

namespace Grammar

theorem Breaks.append {n m : List Placed} (hn : Breaks n) (hm : Breaks m) : Breaks (n ++ m) :=
  List.forall_mem_append.mpr ⟨hn, hm⟩

/-- A list may start with further line ends. -/
theorem Items.breaks {c : Mark} {n ts : List Placed} {es : List Expr} (hn : Breaks n) (h : Items c ts es) :
    Items c (n ++ ts) es := by
  cases h with
  | none hm =>
    rw [← List.append_assoc]
    exact .none (hn.append hm)
  | last hm he hk =>
    simp only [← List.append_assoc]
    exact .last (hn.append hm) he hk
  | more hm he hk hes =>
    simp only [← List.append_assoc]
    exact .more (hn.append hm) he hk hes

end Grammar

namespace Parse

open Grammar
open Check (ok_of_bind)

variable {l line fuel : Nat} {ts rest : List Placed} {e a : Expr}

/-- A part of the tokens in front of the rest. -/
def Takes (ts rest : List Placed) (P : List Placed → Prop) : Prop := ∃ us, ts = us ++ rest ∧ P us

theorem Takes.suffix {P : List Placed → Prop} (h : Takes ts rest P) : rest <:+ ts := by
  obtain ⟨us, rfl, -⟩ := h
  exact List.suffix_append us rest

/-! ## Single tokens -/

theorem skipLines_takes (ts : List Placed) : Takes ts (skipLines ts) Breaks := by
  fun_induction skipLines ts with
  | case1 l ts ih =>
    obtain ⟨n, hts, hn⟩ := ih
    refine ⟨(.newLine, l) :: n, congrArg _ hts, ?_⟩
    exact List.forall_mem_cons.mpr ⟨rfl, hn⟩
  | case2 ts _ => exact ⟨[], rfl, nofun⟩

theorem expect_eq {token : Token} {place : String} (h : expect token place line ts = .ok (l, rest)) :
    ts = (token, l) :: rest := by
  unfold expect at h
  split at h
  · split at h
    · rename_i ht
      cases h
      rw [ht]
    · cases h
  · cases h

theorem name_eq {s : String} (h : name line ts = .ok (s, rest)) : ∃ l, ts = (.identifier s, l) :: rest := by
  unfold name at h
  split at h
  · cases h
    exact ⟨_, rfl⟩
  · cases h
  · cases h

theorem position_eq {p : Nat} (h : position line ts = .ok (p, rest)) :
    ∃ n l, ts = (.integer n, l) :: rest ∧ 0 < n.toInt ∧ p = n.toInt.toNat := by
  unfold position at h
  split at h
  · split at h
    · rename_i hn
      cases h
      exact ⟨_, _, rfl, hn, rfl⟩
    · cases h
  · cases h
  · cases h

theorem method_derives {m : Member} (h : method line ts = .ok (m, rest)) : Takes ts rest (Grammar.Method · m) := by
  obtain ⟨⟨s, rest₁⟩, hs, h₁⟩ := ok_of_bind h
  obtain ⟨l, rfl⟩ := name_eq hs
  dsimp only at h₁
  split at h₁
  · split at h₁
    · rename_i hset
      obtain ⟨⟨p, rest₂⟩, hp, h₂⟩ := ok_of_bind h₁
      obtain ⟨n, l', rfl, hn, rfl⟩ := position_eq hp
      subst hset
      cases h₂
      exact ⟨_, rfl, .setField hn⟩
    · cases h₁
      exact ⟨_, rfl, .named⟩
  · cases h₁
    exact ⟨_, rfl, .named⟩

/-! ## Expressions -/

mutual

theorem level_derives (fuel : Nat) {l : Nat} {ts rest : List Placed} {e : Expr} (hl : l ≤ 11)
    (h : level fuel l ts = .ok (e, rest)) : Takes ts rest (Expression l · e) := by
  cases fuel with
  | zero => simp [level] at h
  | succ fuel =>
    unfold level at h
    split at h
    · rename_i hnot
      obtain rfl : l = 3 := hnot
      split at h
      · obtain ⟨⟨e', rest₁⟩, he, h₁⟩ := ok_of_bind h
        cases h₁
        obtain ⟨us, rfl, hus⟩ := level_derives fuel hl he
        exact ⟨_, rfl, .not hus⟩
      · obtain ⟨us, rfl, hus⟩ := level_derives fuel (by omega) h
        exact ⟨us, rfl, .plain hus⟩
    · rename_i hnot
      split at h
      · rename_i hlt
        obtain ⟨⟨a, rest₁⟩, ha, h₁⟩ := ok_of_bind h
        obtain ⟨us, rfl, hus⟩ := level_derives fuel hlt ha
        obtain ⟨vs, rfl, hvs⟩ := chain_derives fuel hlt h₁
        exact ⟨us ++ vs, (List.append_assoc ..).symm, .chain hlt hnot hus hvs⟩
      · rename_i hge
        obtain rfl : l = 11 := Nat.le_antisymm hl (Nat.le_of_not_lt hge)
        split at h
        · split at h
          · rename_i hop
            obtain ⟨⟨e', rest₁⟩, he, h₁⟩ := ok_of_bind h
            cases h₁
            obtain ⟨us, rfl, hus⟩ := level_derives fuel hl he
            exact ⟨_, rfl, .sign hop hus⟩
          · obtain ⟨us, hts, hus⟩ := power_derives fuel h
            exact ⟨us, hts, .unsigned hus⟩
        · obtain ⟨us, hts, hus⟩ := power_derives fuel h
          exact ⟨us, hts, .unsigned hus⟩

theorem chain_derives (fuel : Nat) {l : Nat} {ts rest : List Placed} {a e : Expr} (hl : l < 11)
    (h : chain fuel l a ts = .ok (e, rest)) : Takes ts rest (Further l a · e) := by
  cases fuel with
  | zero => simp [chain] at h
  | succ fuel =>
    unfold chain at h
    split at h
    · rename_i t line ts
      split at h
      · rename_i op hop
        split at h
        · rename_i hlevel
          obtain ⟨⟨b, rest₁⟩, hb, h₁⟩ := ok_of_bind h
          obtain ⟨n, hn, hbreaks⟩ := skipLines_takes ts
          obtain ⟨us, hus, hright⟩ := level_derives fuel hl hb
          obtain ⟨vs, rfl, hvs⟩ := chain_derives fuel hl h₁
          refine ⟨(t, line) :: (n ++ us ++ vs), ?_, .step hop hlevel hbreaks hright hvs⟩
          rw [hn, hus]
          simp
        · cases h
          exact ⟨[], rfl, .done⟩
      · cases h
        exact ⟨[], rfl, .done⟩
    · cases h
      exact ⟨[], rfl, .done⟩

theorem power_derives (fuel : Nat) {ts rest : List Placed} {e : Expr}
    (h : power fuel ts = .ok (e, rest)) : Takes ts rest (Expression 12 · e) := by
  cases fuel with
  | zero => simp [power] at h
  | succ fuel =>
    unfold power at h
    obtain ⟨⟨a, rest₁⟩, ha, h₁⟩ := ok_of_bind h
    obtain ⟨⟨base, rest₂⟩, hbase, h₂⟩ := ok_of_bind h₁
    obtain ⟨us, rfl, hus⟩ := primary_derives fuel ha
    obtain ⟨vs, rfl, hvs⟩ := postfixes_derives fuel hbase
    dsimp only at h₂
    split at h₂
    · rename_i line rest₃
      obtain ⟨⟨exponent, rest₄⟩, hexp, h₃⟩ := ok_of_bind h₂
      cases h₃
      obtain ⟨n, hn, hbreaks⟩ := skipLines_takes rest₃
      obtain ⟨ws, hws, hexponent⟩ := level_derives fuel (Nat.le_refl 11) hexp
      refine ⟨us ++ vs ++ (.mark .starStar, line) :: (n ++ ws), ?_, .power (.postfixed hus hvs) hbreaks hexponent⟩
      rw [hn, hws]
      simp
    · cases h₂
      exact ⟨us ++ vs, (List.append_assoc ..).symm, .operand (.postfixed hus hvs)⟩

theorem primary_derives (fuel : Nat) {ts rest : List Placed} {e : Expr}
    (h : primary fuel ts = .ok (e, rest)) : Takes ts rest (Primary · e) := by
  cases fuel with
  | zero => simp [primary] at h
  | succ fuel =>
    unfold primary at h
    split at h
    · cases h
    · rename_i line ts
      obtain ⟨⟨e', rest₁⟩, he, h₁⟩ := ok_of_bind h
      obtain ⟨n, hn, hbreaks⟩ := skipLines_takes ts
      obtain ⟨us, hus, hinner⟩ := level_derives fuel (Nat.zero_le 11) he
      obtain ⟨m, hm, hbreaks'⟩ := skipLines_takes rest₁
      dsimp only at h₁
      split at h₁
      · rename_i l' rest₂ hclose
        cases h₁
        refine ⟨(.mark .lParen, line) :: (n ++ us ++ m ++ [(.mark .rParen, l')]), ?_, .group hbreaks hinner hbreaks'⟩
        rw [hn, hus, hm, hclose]
        simp
      · cases h₁
    · obtain ⟨⟨es, rest₁⟩, hes, h₁⟩ := ok_of_bind h
      cases h₁
      obtain ⟨us, rfl, hus⟩ := list_derives fuel hes
      exact ⟨_, rfl, .collection hus⟩
    · split at h
      · obtain ⟨⟨es, rest₁⟩, hes, h₁⟩ := ok_of_bind h
        cases h₁
        obtain ⟨us, rfl, hus⟩ := list_derives fuel hes
        exact ⟨_, rfl, .call hus⟩
      · cases h
        exact ⟨_, rfl, .var⟩
    · split at h
      · rename_i hc
        cases h
        exact ⟨_, rfl, .constant hc⟩
      · cases h

theorem postfixes_derives (fuel : Nat) {ts rest : List Placed} {a e : Expr}
    (h : postfixes fuel a ts = .ok (e, rest)) : Takes ts rest (Postfixes a · e) := by
  cases fuel with
  | zero => simp [postfixes] at h
  | succ fuel =>
    unfold postfixes at h
    split at h
    · obtain ⟨⟨i, rest₁⟩, hi, h₁⟩ := ok_of_bind h
      obtain ⟨⟨l, rest₂⟩, hl, h₂⟩ := ok_of_bind h₁
      obtain ⟨us, rfl, hus⟩ := level_derives fuel (Nat.zero_le 11) hi
      obtain rfl := expect_eq hl
      obtain ⟨vs, rfl, hvs⟩ := postfixes_derives fuel h₂
      exact ⟨_, by simp, .index (l := l) hus hvs⟩
    · obtain ⟨⟨p, rest₁⟩, hp, h₁⟩ := ok_of_bind h
      obtain ⟨n, l, rfl, hn, rfl⟩ := position_eq hp
      obtain ⟨vs, rfl, hvs⟩ := postfixes_derives fuel h₁
      exact ⟨_, rfl, .field hn hvs⟩
    · obtain ⟨⟨m, rest₁⟩, hm, h₁⟩ := ok_of_bind h
      obtain ⟨⟨l, rest₂⟩, hl, h₂⟩ := ok_of_bind h₁
      obtain ⟨⟨es, rest₃⟩, hes, h₃⟩ := ok_of_bind h₂
      obtain ⟨ms, rfl, hms⟩ := method_derives hm
      obtain rfl := expect_eq hl
      obtain ⟨us, rfl, hus⟩ := list_derives fuel hes
      obtain ⟨vs, rfl, hvs⟩ := postfixes_derives fuel h₃
      exact ⟨_, by simp, .member (l := l) hms hus hvs⟩
    · cases h
      exact ⟨[], rfl, .done⟩

theorem list_derives (fuel : Nat) {c : Mark} {line : Nat} {ts rest : List Placed} {es : List Expr}
    (h : list fuel c line ts = .ok (es, rest)) : Takes ts rest (Items c · es) := by
  cases fuel with
  | zero => simp [list] at h
  | succ fuel =>
    unfold list at h
    obtain ⟨n, hn, hbreaks⟩ := skipLines_takes ts
    split at h
    · rename_i t l rest₁ hskip
      split at h
      · rename_i hclose
        cases h
        refine ⟨n ++ [(t, l)], ?_, hclose ▸ .none hbreaks⟩
        rw [hn, hskip]
        simp
      · obtain ⟨us, hus, hitems, -⟩ := elements_derives fuel h
        refine ⟨n ++ us, ?_, hitems.breaks hbreaks⟩
        rw [hn, hskip, hus, List.append_assoc]
    · rename_i hskip
      obtain ⟨us, hus, hitems, -⟩ := elements_derives fuel h
      refine ⟨n ++ us, ?_, hitems.breaks hbreaks⟩
      rw [hn, hskip, hus, List.append_assoc]

theorem elements_derives (fuel : Nat) {c : Mark} {line : Nat} {ts rest : List Placed} {es : List Expr}
    (h : elements fuel c line ts = .ok (es, rest)) : Takes ts rest fun us => Items c us es ∧ es ≠ [] := by
  cases fuel with
  | zero => simp [elements] at h
  | succ fuel =>
    unfold elements at h
    obtain ⟨⟨e, rest₁⟩, he, h₁⟩ := ok_of_bind h
    obtain ⟨n, hn, hbreaks⟩ := skipLines_takes ts
    obtain ⟨us, hus, helement⟩ := level_derives fuel (Nat.zero_le 11) he
    obtain ⟨m, hm, hbreaks'⟩ := skipLines_takes rest₁
    dsimp only at h₁
    split at h₁
    · cases h₁
    · rename_i t l rest₂ hskip
      split at h₁
      · rename_i hclose
        cases h₁
        refine ⟨n ++ us ++ m ++ [(t, l)], ?_, hclose ▸ .last hbreaks helement hbreaks', nofun⟩
        rw [hn, hus, hm, hskip]
        simp
      · split at h₁
        · rename_i hcomma
          obtain ⟨⟨es', rest₃⟩, hes, h₂⟩ := ok_of_bind h₁
          cases h₂
          obtain ⟨vs, hvs, hitems, hne⟩ := elements_derives fuel hes
          obtain ⟨e', es'', rfl⟩ := List.exists_cons_of_ne_nil hne
          refine ⟨n ++ us ++ m ++ (t, l) :: vs, ?_, hcomma ▸ .more hbreaks helement hbreaks' hitems, nofun⟩
          rw [hn, hus, hm, hskip, hvs]
          simp
        · cases h₁

end

/-! ## Statements -/

theorem expr_derives (fuel : Nat) (h : expr fuel ts = .ok (e, rest)) : Takes ts rest (Expression 0 · e) :=
  level_derives fuel (Nat.zero_le 11) h

theorem skipSeparators_takes (ts : List Placed) : Takes ts (skipSeparators ts) Separators := by
  fun_induction skipSeparators ts with
  | case1 l ts ih =>
    obtain ⟨n, hts, hn⟩ := ih
    refine ⟨(.newLine, l) :: n, congrArg _ hts, ?_⟩
    exact List.forall_mem_cons.mpr ⟨rfl, hn⟩
  | case2 l ts ih =>
    obtain ⟨n, hts, hn⟩ := ih
    refine ⟨(.mark .semicolon, l) :: n, congrArg _ hts, ?_⟩
    exact List.forall_mem_cons.mpr ⟨rfl, hn⟩
  | case3 ts _ _ => exact ⟨[], rfl, nofun⟩

theorem continuation_takes {k : Keyword} (h : continuation? k ts = some (line, rest)) :
    Takes ts ((.keyword k, line) :: rest) Breaks := by
  obtain ⟨n, hn, hbreaks⟩ := skipLines_takes ts
  unfold continuation? at h
  split at h
  · rename_i hskip
    split at h
    · rename_i hk
      cases h
      refine ⟨n, ?_, hbreaks⟩
      rw [← hk, ← hskip]
      exact hn
    · cases h
  · cases h

theorem variableName_eq {s : String} (h : variableName line ts = .ok (s, rest)) :
    ∃ l, ts = (.identifier s, l) :: rest ∧ isReserved s = false := by
  obtain ⟨⟨s', rest'⟩, hs, h₁⟩ := ok_of_bind h
  obtain ⟨l, rfl⟩ := name_eq hs
  dsimp only at h₁
  split at h₁
  · cases h₁
  · rename_i hr
    cases h₁
    exact ⟨l, rfl, Bool.eq_false_iff.mpr hr⟩

theorem source_derives {src : Source} (h : source fuel ts = .ok (src, rest)) : Takes ts rest (Range · src) := by
  obtain ⟨⟨a, rest₁⟩, ha, h₁⟩ := ok_of_bind h
  obtain ⟨us, rfl, hus⟩ := expr_derives fuel ha
  dsimp only at h₁
  split at h₁
  · rename_i l rest₂
    obtain ⟨⟨b, rest₃⟩, hb, h₂⟩ := ok_of_bind h₁
    cases h₂
    obtain ⟨vs, rfl, hvs⟩ := expr_derives fuel hb
    exact ⟨_, by simp, .exclusive (l := l) hus hvs⟩
  · rename_i l rest₂
    obtain ⟨⟨b, rest₃⟩, hb, h₂⟩ := ok_of_bind h₁
    cases h₂
    obtain ⟨vs, rfl, hvs⟩ := expr_derives fuel hb
    exact ⟨_, by simp, .inclusive (l := l) hus hvs⟩
  · cases h₁
    exact ⟨us, rfl, .elements hus⟩

/-- Only the plain sign of an assignment has no operator. -/
theorem equals_of_assignment {t : Token} (h : assignment? t = some none) : t = .mark .equals := by
  unfold assignment? at h
  split at h
  all_goals grind

/-- An expression that is a statement starts with the first token, whose line the statement has. -/
theorem expression_derives {t : Token} {s : Statement}
    (h : (do let (e, rest) ← expr fuel ((t, line) :: ts); return (.expression line e, rest)) =
      (.ok (s, rest) : Outcome (Read Statement))) :
    Takes ((t, line) :: ts) rest (Sentence · s) := by
  obtain ⟨⟨e, rest₁⟩, he, h₁⟩ := ok_of_bind h
  cases h₁
  obtain ⟨us, hts, hus⟩ := expr_derives fuel he
  obtain ⟨p, us, rfl, -⟩ := hus.starts
  cases hts
  exact ⟨_, rfl, .expression hus⟩

theorem simple_derives {t : Token} {s : Statement} (h : simple fuel line ((t, line) :: ts) = .ok (s, rest)) :
    Takes ((t, line) :: ts) rest (Sentence · s) := by
  unfold simple at h
  split at h
  · rename_i hts
    cases hts
    split at h
    · exact expression_derives h
    · rename_i op? hop
      cases op? with
      | none =>
        dsimp only at h
        split at h
        · cases h
        · rename_i hr
          obtain ⟨⟨e, rest₁⟩, he, h₁⟩ := ok_of_bind h
          cases h₁
          obtain ⟨us, rfl, hus⟩ := expr_derives fuel he
          obtain rfl := equals_of_assignment hop
          exact ⟨_, rfl, .assign (Bool.eq_false_iff.mpr hr) hus⟩
      | some op =>
        dsimp only at h
        split at h
        · cases h
        · rename_i hr
          obtain ⟨⟨e, rest₁⟩, he, h₁⟩ := ok_of_bind h
          cases h₁
          obtain ⟨us, rfl, hus⟩ := expr_derives fuel he
          exact ⟨_, rfl, .compound hop (Bool.eq_false_iff.mpr hr) hus⟩
  · exact expression_derives h

/-- The end of a sequence of statements, and the tokens after it. -/
inductive Closes : Bool → List Placed → List Placed → Prop where
  | brace {l : Nat} {rest : List Placed} : Closes true ((.mark .rBrace, l) :: rest) rest
  | theEnd : Closes false [] []

/-- What may stand behind a statement, of a block or of the script. -/
def Ended (inBlock : Bool) (ts : List Placed) : Prop :=
  ∀ p ∈ ts.head?, isSeparator p.1 = true ∨ inBlock = true ∧ p.1 = .mark .rBrace

theorem ended_of_endsStatement {inBlock : Bool} (h : endsStatement inBlock ts = .ok ()) : Ended inBlock ts := by
  intro p hp
  unfold endsStatement at h
  split at h
  · cases hp
  · cases hp
    exact .inl rfl
  · cases hp
    exact .inl rfl
  · cases hp
    split at h
    · rename_i hbrace
      exact .inr hbrace
    · cases h

mutual

theorem statement_derives (fuel : Nat) {line : Nat} {t : Token} {ts rest : List Placed} {s : Statement}
    (h : statement fuel line ((t, line) :: ts) = .ok (s, rest)) :
    Takes ((t, line) :: ts) rest (Sentence · s) := by
  cases fuel with
  | zero => simp [statement] at h
  | succ fuel =>
    unfold statement at h
    split at h
    · rename_i heq
      cases heq
      obtain ⟨⟨x, rest₁⟩, hx, h₁⟩ := ok_of_bind h
      obtain ⟨⟨l', rest₂⟩, hl, h₂⟩ := ok_of_bind h₁
      obtain ⟨⟨e, rest₃⟩, he, h₃⟩ := ok_of_bind h₂
      cases h₃
      obtain ⟨l, rfl, hr⟩ := variableName_eq hx
      obtain rfl := expect_eq hl
      obtain ⟨us, rfl, hus⟩ := expr_derives fuel he
      exact ⟨_, rfl, .declare hr hus⟩
    · rename_i heq
      cases heq
      obtain ⟨⟨c, rest₁⟩, hc, h₁⟩ := ok_of_bind h
      obtain ⟨⟨body, rest₂⟩, hbody, h₂⟩ := ok_of_bind h₁
      obtain ⟨⟨⟨bs, otherwise⟩, rest₃⟩, hbs, h₃⟩ := ok_of_bind h₂
      cases h₃
      obtain ⟨us, rfl, hus⟩ := expr_derives fuel hc
      obtain ⟨vs, rfl, hvs⟩ := block_derives fuel hbody
      obtain ⟨ws, rfl, hws⟩ := branches_derives fuel hbs
      exact ⟨_, by simp, .choice hus hvs hws⟩
    · rename_i heq
      cases heq
      obtain ⟨⟨c, rest₁⟩, hc, h₁⟩ := ok_of_bind h
      obtain ⟨⟨body, rest₂⟩, hbody, h₂⟩ := ok_of_bind h₁
      cases h₂
      obtain ⟨us, rfl, hus⟩ := expr_derives fuel hc
      obtain ⟨vs, rfl, hvs⟩ := block_derives fuel hbody
      exact ⟨_, by simp, .loop hus hvs⟩
    · rename_i heq
      cases heq
      obtain ⟨⟨x, rest₁⟩, hx, h₁⟩ := ok_of_bind h
      obtain ⟨⟨l', rest₂⟩, hl, h₂⟩ := ok_of_bind h₁
      obtain ⟨⟨src, rest₃⟩, hsrc, h₃⟩ := ok_of_bind h₂
      obtain ⟨⟨body, rest₄⟩, hbody, h₄⟩ := ok_of_bind h₃
      cases h₄
      obtain ⟨l, rfl, hr⟩ := variableName_eq hx
      obtain rfl := expect_eq hl
      obtain ⟨us, rfl, hus⟩ := source_derives hsrc
      obtain ⟨vs, rfl, hvs⟩ := block_derives fuel hbody
      refine ⟨(.keyword .for, line) :: (.identifier x, l) :: (.keyword .in, l') :: (us ++ vs), ?_, .each hr hus hvs⟩
      simp
    · rename_i heq
      cases heq
      obtain ⟨⟨body, rest₁⟩, hbody, h₁⟩ := ok_of_bind h
      obtain ⟨⟨hs, rest₂⟩, hhs, h₂⟩ := ok_of_bind h₁
      obtain ⟨us, rfl, hus⟩ := block_derives fuel hbody
      obtain ⟨vs, rfl, hvs⟩ := handlers_derives fuel hhs
      dsimp only at h₂
      split at h₂
      · cases h₂
      · cases hs with
        | nil => contradiction
        | cons handler hs =>
          cases h₂
          exact ⟨_, by simp, .attempt hus hvs⟩
    · rename_i heq
      cases heq
      obtain ⟨⟨x, rest₁⟩, hx, h₁⟩ := ok_of_bind h
      cases h₁
      obtain ⟨l, rfl⟩ := name_eq hx
      exact ⟨_, rfl, .raise⟩
    · rename_i heq
      cases heq
      obtain ⟨⟨x, rest₁⟩, hx, h₁⟩ := ok_of_bind h
      cases h₁
      obtain ⟨l, rfl⟩ := name_eq hx
      exact ⟨_, rfl, .load⟩
    · exact simple_derives h

theorem branches_derives (fuel : Nat) {line : Nat} {ts rest : List Placed} {bs : List (Expr × List Statement)}
    {otherwise : Option (List Statement)} (h : branches fuel line ts = .ok ((bs, otherwise), rest)) :
    Takes ts rest (Branches · bs otherwise) := by
  cases fuel with
  | zero => simp [branches] at h
  | succ fuel =>
    unfold branches at h
    split at h
    · cases h
      exact ⟨[], rfl, .done⟩
    · rename_i l l' ts₁ helse
      obtain ⟨⟨c, rest₁⟩, hc, h₁⟩ := ok_of_bind h
      obtain ⟨⟨body, rest₂⟩, hbody, h₂⟩ := ok_of_bind h₁
      obtain ⟨⟨⟨bs', otherwise'⟩, rest₃⟩, hbs, h₃⟩ := ok_of_bind h₂
      cases h₃
      obtain ⟨n, rfl, hn⟩ := continuation_takes helse
      obtain ⟨us, rfl, hus⟩ := expr_derives fuel hc
      obtain ⟨vs, rfl, hvs⟩ := block_derives fuel hbody
      obtain ⟨ws, rfl, hws⟩ := branches_derives fuel hbs
      refine ⟨n ++ (.keyword .else, l) :: (.keyword .if, l') :: (us ++ vs ++ ws), ?_, .elseIf hn hus hvs hws⟩
      simp
    · rename_i l ts₁ _ helse
      obtain ⟨⟨body, rest₁⟩, hbody, h₁⟩ := ok_of_bind h
      cases h₁
      obtain ⟨n, rfl, hn⟩ := continuation_takes helse
      obtain ⟨us, rfl, hus⟩ := block_derives fuel hbody
      exact ⟨_, by simp, .otherwise (l := l) hn hus⟩

theorem handlers_derives (fuel : Nat) {ts rest : List Placed} {hs : List (Handler Statement)}
    (h : handlers fuel ts = .ok (hs, rest)) : Takes ts rest (Handlers · hs) := by
  cases fuel with
  | zero => simp [handlers] at h
  | succ fuel =>
    unfold handlers at h
    split at h
    · cases h
      exact ⟨[], rfl, .done⟩
    · rename_i line ts₁ hcatch
      obtain ⟨⟨x, rest₁⟩, hx, h₁⟩ := ok_of_bind h
      obtain ⟨⟨body, rest₂⟩, hbody, h₂⟩ := ok_of_bind h₁
      obtain ⟨⟨hs', rest₃⟩, hhs, h₃⟩ := ok_of_bind h₂
      cases h₃
      obtain ⟨n, rfl, hn⟩ := continuation_takes hcatch
      obtain ⟨l, rfl⟩ := name_eq hx
      obtain ⟨us, rfl, hus⟩ := block_derives fuel hbody
      obtain ⟨vs, rfl, hvs⟩ := handlers_derives fuel hhs
      exact ⟨_, by simp, .step (l := l) hn hus hvs⟩

theorem block_derives (fuel : Nat) {line : Nat} {ts rest : List Placed} {body : List Statement}
    (h : block fuel line ts = .ok (body, rest)) : Takes ts rest (Block · body) := by
  cases fuel with
  | zero => simp [block] at h
  | succ fuel =>
    unfold block at h
    obtain ⟨⟨l, rest₁⟩, hdo, h₁⟩ := ok_of_bind h
    obtain ⟨⟨l', rest₂⟩, hbrace, h₂⟩ := ok_of_bind h₁
    obtain rfl := expect_eq hdo
    obtain rfl := expect_eq hbrace
    obtain ⟨us, close, rfl, hclose, hus, -⟩ := statements_derives fuel h₂
    cases hclose with
    | @brace l'' =>
      refine ⟨(.keyword .do, l) :: (.mark .lBrace, l') :: (us ++ [(.mark .rBrace, l'')]), ?_, .braces hus⟩
      simp

theorem statements_derives (fuel : Nat) {inBlock : Bool} {line : Nat} {ts rest : List Placed}
    {ss : List Statement} (h : statements fuel inBlock line ts = .ok (ss, rest)) :
    ∃ us close, ts = us ++ close ∧ Closes inBlock close rest ∧ Sequence us ss ∧
      (Ended inBlock ts → ∀ p ∈ us.head?, isSeparator p.1 = true) := by
  cases fuel with
  | zero => simp [statements] at h
  | succ fuel =>
    unfold statements at h
    obtain ⟨n, hn, hseparators⟩ := skipSeparators_takes ts
    split at h
    · rename_i hskip
      split at h
      · cases h
      · rename_i hin
        cases h
        obtain rfl : inBlock = false := Bool.eq_false_iff.mpr hin
        refine ⟨n, [], ?_, .theEnd, .done hseparators, fun _ p hp => hseparators p (List.mem_of_mem_head? hp)⟩
        rw [hn, hskip]
    · rename_i t l ts₁ hskip
      split at h
      · rename_i hbrace
        cases h
        obtain ⟨rfl, rfl⟩ := hbrace
        refine ⟨n, _, ?_, .brace (l := l), .done hseparators, fun _ p hp => hseparators p (List.mem_of_mem_head? hp)⟩
        rw [hn, hskip]
      · rename_i hbrace
        obtain ⟨⟨s, rest₁⟩, hs, h₁⟩ := ok_of_bind h
        obtain ⟨⟨⟩, hend, h₂⟩ := ok_of_bind h₁
        obtain ⟨⟨ss', rest₂⟩, hss, h₃⟩ := ok_of_bind h₂
        cases h₃
        obtain ⟨us, hus, hsentence⟩ := statement_derives fuel hs
        obtain ⟨vs, close, rfl, hclose, hvs, hhead⟩ := statements_derives fuel hss
        refine ⟨n ++ us ++ vs, close, ?_, hclose, .step hseparators hsentence ?_ hvs, ?_⟩
        · rw [hn, hskip, hus]
          simp
        · exact hhead (ended_of_endsStatement hend)
        · intro hended p hp
          obtain ⟨q, us, rfl, hq⟩ := hsentence.starts
          cases n with
          | cons r n =>
            obtain rfl : r = p := Option.some.inj hp
            exact hseparators r List.mem_cons_self
          | nil =>
            obtain rfl : q = p := Option.some.inj hp
            have hq' := hended q (by rw [hn, hskip, hus]; rfl)
            grind [opens, startsAt, isSeparator, constant?, sign?]

end

end Parse
/-- What is read from tokens is derived from all of them. -/
theorem Program.sequence_of_ofTokens {ts : List Placed} {p : Program} (h : Program.ofTokens ts = .ok p) :
    Grammar.Sequence ts p := by
  unfold Program.ofTokens at h
  cases hs : Parse.statements (Parse.fuelFor ts) false 1 ts with
  | error e =>
    rw [hs] at h
    cases h
  | ok r =>
    obtain ⟨ss, rest⟩ := r
    rw [hs] at h
    cases h
    obtain ⟨us, close, rfl, hclose, hus, -⟩ := Parse.statements_derives _ hs
    cases hclose with
    | theEnd =>
      rw [List.append_nil]
      exact hus

end Crunch
