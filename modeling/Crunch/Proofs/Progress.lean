import Crunch.Proofs.Rejections

/-!
# Crunch.Proofs.Progress

Parsers make progress.

* `Parse.Advances`, `Parse.Progresses`: what is left is a proper suffix of what was given.
* `Parse.loop`, `Parse.Consumes`: a loop of passes, and that each of its passes takes a token.
* `Parse.chainPass`, `Parse.statementPass` and the like: one pass of each loop of the parsers.
* `Parse.always_progress`: all parsers progress and all loops consume, so that no script runs out of fuel.

A parser that calls itself for what follows is a loop: `Parse.Repeats` says that it does what its passes do one
after the other. What the parsers take is known from the grammar, where expressions, lists and blocks are never empty.
-/

namespace Crunch
namespace Parse

open Grammar
open Check (ok_of_bind)

variable {σ α : Type} {ts us rest : List Placed} {line fuel l : Nat}

/-! ## Suffixes -/

/-- What is left is a suffix of what there was, and not all of it. -/
def Advances (ts rest : List Placed) : Prop := rest <:+ ts ∧ rest ≠ ts

/-- A parser leaves less than it is given. -/
def Progresses (p : List Placed → Outcome (Read α)) : Prop := ∀ ts a rest, p ts = .ok (a, rest) → Advances ts rest

theorem Takes.advances {P : List Placed → Prop} (h : Takes ts rest P) (hP : ∀ us, P us → us ≠ []) :
    Advances ts rest := by
  refine ⟨h.suffix, ?_⟩
  obtain ⟨us, rfl, hus⟩ := h
  exact fun heq => hP us hus (List.self_eq_append_left.mp heq)

theorem Advances.length_lt (h : Advances ts rest) : rest.length < ts.length :=
  h.1.length_le.lt_of_ne fun heq => h.2 (h.1.eq_of_length heq)

theorem Advances.after (h : Advances us rest) (hus : us <:+ ts) : Advances ts rest := by
  have hlength := hus.length_le
  refine ⟨h.1.trans hus, ?_⟩
  rintro rfl
  exact absurd h.length_lt (Nat.not_lt.mpr hlength)

theorem Advances.further (h : Advances ts us) (hrest : rest <:+ us) : Advances ts rest := by
  have hlength := hrest.length_le
  refine ⟨hrest.trans h.1, ?_⟩
  rintro rfl
  exact absurd h.length_lt (Nat.not_lt.mpr hlength)

theorem advances_cons {p : Placed} (h : rest <:+ ts) : Advances (p :: ts) rest :=
  Advances.further ⟨List.suffix_cons p ts, (List.cons_ne_self p ts).symm⟩ h

theorem skipLines_suffix (ts : List Placed) : skipLines ts <:+ ts := (skipLines_takes ts).suffix

theorem skipSeparators_suffix (ts : List Placed) : skipSeparators ts <:+ ts := (skipSeparators_takes ts).suffix

/-! ## Expressions -/

/-- Past the signs there are no more levels. -/
theorem level_of_le (fuel : Nat) (hl : 11 ≤ l) (ts : List Placed) : level fuel l ts = level fuel 11 ts := by
  induction fuel generalizing ts with
  | zero => rw [level, level]
  | succ fuel ih =>
    have hnot : ¬ l = UnaryOp.not.level := by
      change ¬ l = 3
      omega
    have hsign : ¬ l < UnaryOp.negate.level := Nat.not_lt.mpr hl
    have hnot' : ¬ 11 = UnaryOp.not.level := by decide
    have hsign' : ¬ 11 < UnaryOp.negate.level := by decide
    unfold level
    simp only [if_neg hnot, if_neg hsign, if_neg hnot', if_neg hsign', ih]

theorem level_progresses (fuel l : Nat) : Progresses (level fuel l) := by
  intro ts e rest h
  by_cases hl : l ≤ 11
  · exact (level_derives fuel hl h).advances fun us hus => List.ne_nil_of_length_pos hus.length_pos
  · rw [level_of_le fuel (by omega)] at h
    exact (level_derives fuel (Nat.le_refl 11) h).advances fun us hus => List.ne_nil_of_length_pos hus.length_pos

theorem expr_progresses (fuel : Nat) : Progresses (expr fuel) := level_progresses fuel 0

theorem power_progresses (fuel : Nat) : Progresses (power fuel) := fun _ _ _ h =>
  (power_derives fuel h).advances fun _ hus => List.ne_nil_of_length_pos hus.length_pos

theorem primary_progresses (fuel : Nat) : Progresses (primary fuel) := by
  intro ts e rest h
  refine (primary_derives fuel h).advances fun us hus => ?_
  obtain ⟨p, us, rfl, -⟩ := hus.starts
  exact List.cons_ne_nil p us

theorem list_progresses (fuel : Nat) (closing : Mark) (line : Nat) : Progresses (list fuel closing line) := by
  intro ts es rest h
  refine (list_derives fuel h).advances fun us hus => ?_
  cases hus with
  | none _ | last _ _ _ | more _ _ _ _ => simp

/-! ## Statements -/

theorem block_statements_progresses (fuel line : Nat) : Progresses (statements fuel true line) := by
  intro ts ss rest h
  obtain ⟨us, close, rfl, hclose, -⟩ := statements_derives fuel h
  cases hclose with
  | brace => exact (advances_cons List.suffix_rfl).after (List.suffix_append us _)

theorem block_progresses (fuel line : Nat) : Progresses (block fuel line) := by
  intro ts body rest h
  refine (block_derives fuel h).advances fun us hus => ?_
  cases hus with
  | braces _ => exact List.cons_ne_nil _ _

theorem simple_progresses (fuel line : Nat) : Progresses (simple fuel line) := by
  intro ts s rest h
  unfold simple at h
  split at h
  · split at h
    · obtain ⟨⟨e, rest₁⟩, he, h₁⟩ := ok_of_bind h
      cases h₁
      exact expr_progresses fuel _ _ _ he
    · rename_i op? _
      dsimp only at h
      split at h
      · cases h
      · obtain ⟨⟨e, rest₁⟩, he, h₁⟩ := ok_of_bind h
        have hrest := (expr_derives fuel he).suffix
        cases op? with
        | none | some op =>
          cases h₁
          exact advances_cons (hrest.trans (List.suffix_cons _ _))
  · obtain ⟨⟨e, rest₁⟩, he, h₁⟩ := ok_of_bind h
    cases h₁
    exact expr_progresses fuel _ _ _ he

/-- A statement that starts with a keyword has taken the keyword. -/
theorem statement_progresses (fuel line : Nat) : Progresses (statement fuel line) := by
  intro ts s rest h
  cases fuel with
  | zero => simp [statement] at h
  | succ fuel =>
    unfold statement at h
    split at h
    · obtain ⟨⟨x, rest₁⟩, hx, h₁⟩ := ok_of_bind h
      obtain ⟨⟨l', rest₂⟩, hl, h₂⟩ := ok_of_bind h₁
      obtain ⟨⟨e, rest₃⟩, he, h₃⟩ := ok_of_bind h₂
      cases h₃
      obtain ⟨l, rfl, -⟩ := variableName_eq hx
      obtain rfl := expect_eq hl
      exact advances_cons (((expr_derives fuel he).suffix.trans (List.suffix_cons _ _)).trans (List.suffix_cons _ _))
    · obtain ⟨⟨c, rest₁⟩, hc, h₁⟩ := ok_of_bind h
      obtain ⟨⟨body, rest₂⟩, hbody, h₂⟩ := ok_of_bind h₁
      obtain ⟨⟨⟨bs, otherwise⟩, rest₃⟩, hbs, h₃⟩ := ok_of_bind h₂
      cases h₃
      have hrest := (branches_derives fuel hbs).suffix.trans (block_derives fuel hbody).suffix
      exact advances_cons (hrest.trans (expr_derives fuel hc).suffix)
    · obtain ⟨⟨c, rest₁⟩, hc, h₁⟩ := ok_of_bind h
      obtain ⟨⟨body, rest₂⟩, hbody, h₂⟩ := ok_of_bind h₁
      cases h₂
      exact advances_cons ((block_derives fuel hbody).suffix.trans (expr_derives fuel hc).suffix)
    · obtain ⟨⟨x, rest₁⟩, hx, h₁⟩ := ok_of_bind h
      obtain ⟨⟨l', rest₂⟩, hl, h₂⟩ := ok_of_bind h₁
      obtain ⟨⟨src, rest₃⟩, hsrc, h₃⟩ := ok_of_bind h₂
      obtain ⟨⟨body, rest₄⟩, hbody, h₄⟩ := ok_of_bind h₃
      cases h₄
      obtain ⟨l, rfl, -⟩ := variableName_eq hx
      obtain rfl := expect_eq hl
      have hrest := (block_derives fuel hbody).suffix.trans (source_derives hsrc).suffix
      exact advances_cons ((hrest.trans (List.suffix_cons _ _)).trans (List.suffix_cons _ _))
    · obtain ⟨⟨body, rest₁⟩, hbody, h₁⟩ := ok_of_bind h
      obtain ⟨⟨hs, rest₂⟩, hhs, h₂⟩ := ok_of_bind h₁
      dsimp only at h₂
      split at h₂
      · cases h₂
      · cases h₂
        exact advances_cons ((handlers_derives fuel hhs).suffix.trans (block_derives fuel hbody).suffix)
    · obtain ⟨⟨x, rest₁⟩, hx, h₁⟩ := ok_of_bind h
      cases h₁
      obtain ⟨l, rfl⟩ := name_eq hx
      exact advances_cons (List.suffix_cons _ _)
    · obtain ⟨⟨x, rest₁⟩, hx, h₁⟩ := ok_of_bind h
      cases h₁
      obtain ⟨l, rfl⟩ := name_eq hx
      exact advances_cons (List.suffix_cons _ _)
    · exact simple_progresses fuel line _ _ _ h

/-! ## Loops -/

/-- How a pass of a loop ends. -/
inductive Turn (σ α : Type) where
  /-- Another pass follows. -/
  | again (state : σ)
  /-- The pass was the last one. -/
  | last (result : α)
  /-- There was nothing to do for a pass any more. -/
  | stop (result : α)

/-- Whether there was nothing to do. -/
def Turn.stops : Turn σ α → Bool
  | .stop _ => true
  | .again _ | .last _ => false

/-- A pass of a loop over tokens, with fuel for the parsers that it calls. -/
abbrev Pass (σ α : Type) := Nat → σ → List Placed → Outcome (Read (Turn σ α))

/-- What follows a pass. -/
def Turn.andThen (next : σ → List Placed → Outcome (Read α)) : Read (Turn σ α) → Outcome (Read α)
  | (.again state, rest) => next state rest
  | (.last a, rest) | (.stop a, rest) => .ok (a, rest)

/-- Passes until one of them ends the loop. -/
def loop (pass : Pass σ α) : Nat → σ → List Placed → Outcome (Read α)
  | 0, _, _ => .error .outOfFuel
  | fuel + 1, state, ts => pass fuel state ts >>= Turn.andThen (loop pass fuel)

/-- What does a pass and then goes on as before is a loop. -/
theorem eq_loop (run : Nat → σ → List Placed → Outcome (Read α)) {pass : Pass σ α}
    (hzero : ∀ state ts, run 0 state ts = .error .outOfFuel)
    (hsucc : ∀ fuel state ts, run (fuel + 1) state ts = pass fuel state ts >>= Turn.andThen (run fuel))
    (fuel : Nat) (state : σ) (ts : List Placed) : run fuel state ts = loop pass fuel state ts := by
  induction fuel generalizing state ts with
  | zero => exact hzero state ts
  | succ fuel ih =>
    have hrun : run fuel = loop pass fuel := funext fun state => funext fun ts => ih state ts
    rw [hsucc, hrun]
    rfl

/-- The number of passes that had something to do. -/
def passes (pass : Pass σ α) : Nat → σ → List Placed → Nat
  | 0, _, _ => 0
  | fuel + 1, state, ts =>
    match pass fuel state ts with
    | .ok (.again state, rest) => passes pass fuel state rest + 1
    | .ok (.last _, _) => 1
    | .ok (.stop _, _) | .error _ => 0

/-- A pass that has something to do takes a token. -/
def Consumes (pass : Pass σ α) : Prop :=
  ∀ fuel state ts turn rest, pass fuel state ts = .ok (turn, rest) → turn.stops = false → Advances ts rest

/-- A loop has no more passes than tokens, whatever the fuel. -/
theorem Consumes.passes_le {pass : Pass σ α} (h : Consumes pass) (fuel : Nat) (state : σ) (ts : List Placed) :
    passes pass fuel state ts ≤ ts.length := by
  induction fuel generalizing state ts with
  | zero => exact Nat.zero_le _
  | succ fuel ih =>
    unfold passes
    split
    · rename_i state' rest hpass
      have hlt := (h _ _ _ _ _ hpass rfl).length_lt
      exact (Nat.succ_le_succ (ih state' rest)).trans hlt
    · rename_i a rest hpass
      exact (Nat.zero_le _).trans_lt (h _ _ _ _ _ hpass rfl).length_lt
    · exact Nat.zero_le _
    · exact Nat.zero_le _

/-- A parser is a loop, each pass of which takes a token. -/
structure Repeats (run : Nat → List Placed → Outcome (Read α)) (start : σ) (pass : Pass σ α) : Prop where
  eq_loop : ∀ fuel ts, run fuel ts = loop pass fuel start ts
  consumes : Consumes pass
  passes_le : ∀ fuel ts, passes pass fuel start ts ≤ ts.length

theorem Consumes.repeats {run : Nat → List Placed → Outcome (Read α)} {start : σ} {pass : Pass σ α}
    (h : Consumes pass) (heq : ∀ fuel ts, run fuel ts = loop pass fuel start ts) : Repeats run start pass :=
  ⟨heq, h, fun fuel => h.passes_le fuel start⟩

/-! ## Passes -/

/-- One more operator of a level with its right operand. -/
def chainPass (l : Nat) : Pass Expr Expr := fun fuel left ts =>
  match ts with
  | (t, line) :: rest =>
    match operator? t with
    | some op =>
      if op.level = l then do
        let (right, rest) ← level fuel (l + 1) (skipLines rest)
        return (.again (.binary line op left right), rest)
      else .ok (.stop left, ts)
    | none => .ok (.stop left, ts)
  | [] => .ok (.stop left, ts)

/-- One more index, field or member call. -/
def postfixPass : Pass Expr Expr := fun fuel e ts =>
  match ts with
  | (.mark .lBracket, line) :: rest => do
    let (i, rest) ← level fuel 0 rest
    let (_, rest) ← expect (.mark .rBracket) "after index" line rest
    return (.again (.index line e i), rest)
  | (.mark .at, line) :: rest => do
    let (p, rest) ← position line rest
    return (.again (.field line e p), rest)
  | (.mark .dot, line) :: rest => do
    let (m, rest) ← method line rest
    let (opening, rest) ← expect (.mark .lParen) s!"after '.{m.text}'" line rest
    let (es, rest) ← list fuel .rParen opening rest
    return (.again (.member line e m es), rest)
  | _ => .ok (.stop e, ts)

/-- One more element of a list, with the comma or the bracket after it. -/
def elementPass (closing : Mark) (line : Nat) : Pass (List Expr) (List Expr) := fun fuel es ts => do
  let (e, rest) ← level fuel 0 (skipLines ts)
  match skipLines rest with
  | [] => reject line .unexpectedEnd
  | (t, l) :: rest =>
    if t = .mark closing then return (.last (es ++ [e]), rest)
    else if t = .mark .comma then return (.again (es ++ [e]), rest)
    else reject l (.unexpected (.inList closing.spelling t.text))

/-- One more statement, or the end of them. The state is the line of the last statement, or of the opening brace
before the first one, and the statements so far. -/
def statementPass (inBlock : Bool) : Pass (Nat × List Statement) (List Statement) := fun fuel state ts =>
  match skipSeparators ts with
  | [] => if inBlock then reject state.1 .unexpectedEnd else .ok (.stop state.2, [])
  | (t, l) :: rest =>
    if inBlock ∧ t = .mark .rBrace then .ok (.last state.2, rest)
    else do
      let (s, rest) ← statement fuel l ((t, l) :: rest)
      endsStatement inBlock rest
      return (.again (s.line, state.2 ++ [s]), rest)

/-- Branches with their conditions, and the one without. -/
abbrev Choices := List (Expr × List Statement) × Option (List Statement)

/-- One more branch of an `if`. -/
def branchPass (line : Nat) : Pass (List (Expr × List Statement)) Choices := fun fuel bs ts =>
  match continuation? .else ts with
  | none => .ok (.stop (bs, none), ts)
  | some (_, (.keyword .if, _) :: rest) => do
    let (c, rest) ← expr fuel rest
    let (body, rest) ← block fuel line rest
    return (.again (bs ++ [(c, body)]), rest)
  | some (_, rest) => do
    let (body, rest) ← block fuel line rest
    return (.last (bs, some body), rest)

/-- One more handler of a `try`. -/
def handlerPass : Pass (List (Handler Statement)) (List (Handler Statement)) := fun fuel hs ts =>
  match continuation? .catch ts with
  | none => .ok (.stop hs, ts)
  | some (line, rest) => do
    let (s, rest) ← name line rest
    let (body, rest) ← block fuel line rest
    return (.again (hs ++ [⟨s, line, body⟩]), rest)

/-! ## What the passes take -/

theorem chainPass_consumes (l : Nat) : Consumes (chainPass l) := by
  intro fuel left ts turn rest h hturn
  unfold chainPass at h
  split at h
  · rename_i t line ts
    split at h
    · split at h
      · obtain ⟨⟨b, rest₁⟩, hb, h₁⟩ := ok_of_bind h
        cases h₁
        exact advances_cons ((level_progresses fuel (l + 1) _ _ _ hb).1.trans (skipLines_suffix ts))
      · cases h
        cases hturn
    · cases h
      cases hturn
  · cases h
    cases hturn

theorem postfixPass_consumes : Consumes postfixPass := by
  intro fuel e ts turn rest h hturn
  unfold postfixPass at h
  split at h
  · obtain ⟨⟨i, rest₁⟩, hi, h₁⟩ := ok_of_bind h
    obtain ⟨⟨l, rest₂⟩, hl, h₂⟩ := ok_of_bind h₁
    cases h₂
    obtain rfl := expect_eq hl
    exact advances_cons ((List.suffix_cons _ _).trans (level_progresses fuel 0 _ _ _ hi).1)
  · obtain ⟨⟨p, rest₁⟩, hp, h₁⟩ := ok_of_bind h
    cases h₁
    obtain ⟨n, l, rfl, -⟩ := position_eq hp
    exact advances_cons (List.suffix_cons _ _)
  · obtain ⟨⟨m, rest₁⟩, hm, h₁⟩ := ok_of_bind h
    obtain ⟨⟨l, rest₂⟩, hl, h₂⟩ := ok_of_bind h₁
    obtain ⟨⟨es, rest₃⟩, hes, h₃⟩ := ok_of_bind h₂
    cases h₃
    obtain rfl := expect_eq hl
    have hrest := (list_derives fuel hes).suffix.trans (List.suffix_cons (Token.mark .lParen, l) rest₂)
    exact advances_cons (hrest.trans (method_derives hm).suffix)
  · cases h
    cases hturn

theorem elementPass_consumes (closing : Mark) (line : Nat) : Consumes (elementPass closing line) := by
  intro fuel es ts turn rest h _
  obtain ⟨⟨e, rest₁⟩, he, h₁⟩ := ok_of_bind h
  have hfirst := (level_progresses fuel 0 _ _ _ he).after (skipLines_suffix ts)
  have hskip := skipLines_suffix rest₁
  dsimp only at h₁
  split at h₁
  · cases h₁
  · rename_i t l rest₂ heq
    rw [heq] at hskip
    have hrest := hfirst.further ((List.suffix_cons _ _).trans hskip)
    split at h₁
    · cases h₁
      exact hrest
    · split at h₁
      · cases h₁
        exact hrest
      · cases h₁

theorem statementPass_consumes (inBlock : Bool) : Consumes (statementPass inBlock) := by
  intro fuel state ts turn rest h hturn
  have hskip := skipSeparators_suffix ts
  unfold statementPass at h
  split at h
  · split at h
    · cases h
    · cases h
      cases hturn
  · rename_i t l rest₁ heq
    rw [heq] at hskip
    split at h
    · cases h
      exact (advances_cons List.suffix_rfl).after hskip
    · obtain ⟨⟨s, rest₂⟩, hs, h₁⟩ := ok_of_bind h
      obtain ⟨⟨⟩, -, h₂⟩ := ok_of_bind h₁
      cases h₂
      exact (statement_progresses fuel l _ _ _ hs).after hskip

theorem branchPass_consumes (line : Nat) : Consumes (branchPass line) := by
  intro fuel bs ts turn rest h hturn
  unfold branchPass at h
  split at h
  · cases h
    cases hturn
  · rename_i helse
    obtain ⟨⟨c, rest₁⟩, hc, h₁⟩ := ok_of_bind h
    obtain ⟨⟨body, rest₂⟩, hbody, h₂⟩ := ok_of_bind h₁
    cases h₂
    have hrest := (block_derives fuel hbody).suffix.trans (expr_derives fuel hc).suffix
    exact (advances_cons (hrest.trans (List.suffix_cons _ _))).after (continuation_takes helse).suffix
  · rename_i helse
    obtain ⟨⟨body, rest₁⟩, hbody, h₁⟩ := ok_of_bind h
    cases h₁
    exact (advances_cons (block_derives fuel hbody).suffix).after (continuation_takes helse).suffix

theorem handlerPass_consumes : Consumes handlerPass := by
  intro fuel hs ts turn rest h hturn
  unfold handlerPass at h
  split at h
  · cases h
    cases hturn
  · rename_i hcatch
    obtain ⟨⟨x, rest₁⟩, hx, h₁⟩ := ok_of_bind h
    obtain ⟨⟨body, rest₂⟩, hbody, h₂⟩ := ok_of_bind h₁
    cases h₂
    obtain ⟨l, rfl⟩ := name_eq hx
    have hrest := (block_derives fuel hbody).suffix.trans (List.suffix_cons (Token.identifier x, l) rest₁)
    exact (advances_cons hrest).after (continuation_takes hcatch).suffix

/-! ## The parsers as loops -/

theorem chain_succ (fuel l : Nat) (left : Expr) (ts : List Placed) :
    chain (fuel + 1) l left ts = chainPass l fuel left ts >>= Turn.andThen (chain fuel l) := by
  cases ts with
  | nil =>
    unfold chain
    rfl
  | cons p rest =>
    obtain ⟨t, line⟩ := p
    simp only [chain, chainPass]
    cases operator? t with
    | none => rfl
    | some op =>
      by_cases hop : op.level = l
      · simp only [if_pos hop, bind_assoc]
        rfl
      · simp only [if_neg hop]
        rfl

theorem postfixes_succ (fuel : Nat) (e : Expr) (ts : List Placed) :
    postfixes (fuel + 1) e ts = postfixPass fuel e ts >>= Turn.andThen (postfixes fuel) := by
  unfold postfixes postfixPass
  split
  all_goals first
    | rfl
    | simp only [bind_assoc]
      rfl

/-- What is read behind other elements. -/
def behind (as : List α) (r : Read (List α)) : Read (List α) := (as ++ r.1, r.2)

theorem behind_nil (x : Outcome (Read (List α))) : behind [] <$> x = x := id_map x

theorem behind_cons (as : List α) (a : α) (x : Outcome (Read (List α))) :
    (do let r ← x; pure (behind as (a :: r.1, r.2))) = behind (as ++ [a]) <$> x := by
  cases x with
  | error e => rfl
  | ok r =>
    change Except.ok _ = Except.ok _
    rw [behind, behind, List.append_assoc, List.singleton_append]

theorem elements_succ (closing : Mark) (line fuel : Nat) (es : List Expr) (ts : List Placed) :
    behind es <$> elements (fuel + 1) closing line ts =
      elementPass closing line fuel es ts >>=
        Turn.andThen fun es ts => behind es <$> elements fuel closing line ts := by
  simp only [elements, elementPass, map_bind, bind_assoc]
  congr 1
  funext r
  cases skipLines r.2 with
  | nil => rfl
  | cons p rest =>
    dsimp only
    split
    · rfl
    · split
      · simp only [map_bind, map_pure, pure_bind, Turn.andThen]
        exact behind_cons es r.1 _
      · rfl

theorem statements_succ (inBlock : Bool) (fuel : Nat) (state : Nat × List Statement) (ts : List Placed) :
    behind state.2 <$> statements (fuel + 1) inBlock state.1 ts =
      statementPass inBlock fuel state ts >>=
        Turn.andThen fun state ts => behind state.2 <$> statements fuel inBlock state.1 ts := by
  simp only [statements, statementPass]
  cases skipSeparators ts with
  | nil =>
    cases inBlock with
    | true => rfl
    | false => exact congrArg (fun ss => Except.ok (ss, [])) (List.append_nil state.2)
  | cons p rest =>
    dsimp only
    split
    · exact congrArg (fun ss => Except.ok (ss, rest)) (List.append_nil state.2)
    · simp only [map_bind, map_pure, bind_assoc, pure_bind, Turn.andThen, behind_cons]

theorem handlers_succ (fuel : Nat) (hs : List (Handler Statement)) (ts : List Placed) :
    behind hs <$> handlers (fuel + 1) ts =
      handlerPass fuel hs ts >>= Turn.andThen fun hs ts => behind hs <$> handlers fuel ts := by
  simp only [handlers, handlerPass]
  cases continuation? .catch ts with
  | none => exact congrArg (fun hs => Except.ok (hs, ts)) (List.append_nil hs)
  | some r => simp only [map_bind, map_pure, bind_assoc, pure_bind, Turn.andThen, behind_cons]

/-- What is read behind other branches. -/
def behindBranches (bs : List (Expr × List Statement)) (r : Read Choices) : Read Choices :=
  ((bs ++ r.1.1, r.1.2), r.2)

theorem behindBranches_nil (x : Outcome (Read Choices)) : behindBranches [] <$> x = x := id_map x

theorem behindBranches_cons (bs : List (Expr × List Statement)) (b : Expr × List Statement)
    (x : Outcome (Read Choices)) :
    (do let r ← x; pure (behindBranches bs ((b :: r.1.1, r.1.2), r.2))) = behindBranches (bs ++ [b]) <$> x := by
  cases x with
  | error e => rfl
  | ok r =>
    change Except.ok _ = Except.ok _
    rw [behindBranches, behindBranches, List.append_assoc, List.singleton_append]

theorem branches_succ (line fuel : Nat) (bs : List (Expr × List Statement)) (ts : List Placed) :
    behindBranches bs <$> branches (fuel + 1) line ts =
      branchPass line fuel bs ts >>=
        Turn.andThen fun bs ts => behindBranches bs <$> branches fuel line ts := by
  cases hc : continuation? .else ts with
  | none =>
    simp only [branches, branchPass, hc]
    exact congrArg (fun bs => Except.ok ((bs, none), ts)) (List.append_nil bs)
  | some r =>
    obtain ⟨l, rest⟩ := r
    by_cases hif : ∃ l' rest', rest = (.keyword .if, l') :: rest'
    · obtain ⟨l', rest', rfl⟩ := hif
      simp only [branches, branchPass, hc, map_bind, map_pure, bind_assoc, pure_bind, Turn.andThen,
        behindBranches_cons]
    · have hother : ∀ l' rest', rest = (.keyword .if, l') :: rest' → False := fun l' rest' h => hif ⟨l', rest', h⟩
      simp only [branches, branchPass, hc, map_bind, map_pure, bind_assoc, pure_bind, behindBranches, List.append_nil]
      rfl

/-! ## All of them -/

theorem chain_repeats (l : Nat) (left : Expr) : Repeats (fun fuel => chain fuel l left) left (chainPass l) :=
  (chainPass_consumes l).repeats fun fuel ts =>
    eq_loop (fun fuel => chain fuel l) (fun left ts => by rw [chain]) (fun fuel => chain_succ fuel l) fuel left ts

theorem postfixes_repeats (e : Expr) : Repeats (fun fuel => postfixes fuel e) e postfixPass :=
  postfixPass_consumes.repeats fun fuel ts => eq_loop postfixes (fun e ts => by rw [postfixes]) postfixes_succ fuel e ts

theorem elements_repeats (closing : Mark) (line : Nat) :
    Repeats (fun fuel => elements fuel closing line) [] (elementPass closing line) := by
  refine (elementPass_consumes closing line).repeats fun fuel ts => ?_
  rw [← eq_loop (fun fuel es ts => behind es <$> elements fuel closing line ts) (fun es ts => ?_)
    (elements_succ closing line), behind_nil]
  rw [elements]
  rfl

theorem statements_repeats (inBlock : Bool) (line : Nat) :
    Repeats (fun fuel => statements fuel inBlock line) (line, []) (statementPass inBlock) := by
  refine (statementPass_consumes inBlock).repeats fun fuel ts => ?_
  rw [← eq_loop (fun fuel state ts => behind state.2 <$> statements fuel inBlock state.1 ts) (fun state ts => ?_)
    (statements_succ inBlock), behind_nil]
  rw [statements]
  rfl

theorem branches_repeats (line : Nat) : Repeats (fun fuel => branches fuel line) [] (branchPass line) := by
  refine (branchPass_consumes line).repeats fun fuel ts => ?_
  rw [← eq_loop (fun fuel bs ts => behindBranches bs <$> branches fuel line ts) (fun bs ts => ?_)
    (branches_succ line), behindBranches_nil]
  rw [branches]
  rfl

theorem handlers_repeats : Repeats handlers [] handlerPass := by
  refine handlerPass_consumes.repeats fun fuel ts => ?_
  rw [← eq_loop (fun fuel hs ts => behind hs <$> handlers fuel ts) (fun hs ts => ?_) handlers_succ, behind_nil]
  rw [handlers]
  rfl

/-- Sixteen units of fuel for each token, and sixteen more, are never used up. -/
theorem statements_ne_outOfFuel (inBlock : Bool) (line : Nat) (ts : List Placed) (more : Nat) :
    statements (16 * ts.length + 16 + more) inBlock line ts ≠ .error .outOfFuel := by
  have hahead : Ahead (fun _ => True) (lastWord .newLine ts) .newLine ts := ⟨fun _ _ => trivial, rfl⟩
  have hpast := hahead.past rfl (Nat.lt_succ_self ts.length)
  intro h
  have hanswers : Answers _ _ (statements (16 * ts.length + 16 + more) inBlock line ts) _ :=
    statements_answers _ hpast trivial (Nat.le_add_right _ more)
  rw [h] at hanswers
  exact hanswers

/-- The tokens of a script are read or rejected. -/
theorem ofTokens_ends (ts : List Placed) :
    (∃ p, Program.ofTokens ts = .ok p) ∨ ∃ r, Program.ofTokens ts = .error (.error r) := by
  have hfuel : statements (fuelFor ts) false 1 ts ≠ .error .outOfFuel := statements_ne_outOfFuel false 1 ts 16
  unfold Program.ofTokens
  cases hs : statements (fuelFor ts) false 1 ts with
  | ok r => exact .inl ⟨r.1, rfl⟩
  | error e =>
    cases e with
    | error r => exact .inr ⟨r, rfl⟩
    | outOfFuel => exact absurd hs hfuel

/-- Every parser makes progress. What the parsers of statements, expressions, levels (11 is that of the signs), powers,
operands, lists and blocks leave, with any fuel, is a proper suffix of their tokens. What repeats in them are passes,
each of which takes a token. So fuel that is linear in the number of tokens is enough to read or reject any script. -/
theorem always_progress :
    ((∀ fuel line, Progresses (statement fuel line)) ∧ (∀ fuel, Progresses (expr fuel)) ∧
      (∀ fuel l, Progresses (level fuel l)) ∧ (∀ fuel, Progresses (power fuel)) ∧
      (∀ fuel, Progresses (primary fuel)) ∧ (∀ fuel closing line, Progresses (list fuel closing line)) ∧
      (∀ fuel line, Progresses (statements fuel true line)) ∧ ∀ fuel line, Progresses (block fuel line)) ∧
    ((∀ l left, Repeats (fun fuel => chain fuel l left) left (chainPass l)) ∧
      (∀ e, Repeats (fun fuel => postfixes fuel e) e postfixPass) ∧
      (∀ closing line, Repeats (fun fuel => elements fuel closing line) [] (elementPass closing line)) ∧
      (∀ inBlock line, Repeats (fun fuel => statements fuel inBlock line) (line, []) (statementPass inBlock)) ∧
      (∀ line, Repeats (fun fuel => branches fuel line) [] (branchPass line)) ∧ Repeats handlers [] handlerPass) ∧
    ∀ ts, fuelFor ts = 16 * ts.length + 16 + 16 ∧
      (∀ inBlock line more, statements (16 * ts.length + 16 + more) inBlock line ts ≠ .error .outOfFuel) ∧
      ((∃ p, Program.ofTokens ts = .ok p) ∨ ∃ r, Program.ofTokens ts = .error (.error r)) := by
  refine ⟨⟨statement_progresses, expr_progresses, level_progresses, power_progresses, primary_progresses,
    list_progresses, block_statements_progresses, block_progresses⟩, ⟨chain_repeats, postfixes_repeats,
    elements_repeats, statements_repeats, branches_repeats, handlers_repeats⟩, fun ts => ⟨rfl, ?_, ofTokens_ends ts⟩⟩
  exact fun inBlock line more => statements_ne_outOfFuel inBlock line ts more

end Parse
end Crunch
