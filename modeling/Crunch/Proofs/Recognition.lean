import Crunch.Proofs.Derivation

/-!
# Crunch.Proofs.Recognition

What can be derived is parsed.

* `Grammar.Expression.read`: a parser reads the tokens of a derived expression and gives its tree, in
  front of any tokens that do not go on with it.
* `Grammar.Sequence.read`: the same for statements.
* `Program.ofTokens_append_newLine`: two scripts with a line end between them are read as the statements of both.

The fuel is bounded by the number of tokens. A derivation of one level calls at most fourteen others
before the first token is taken, which is why each token pays for sixteen calls.
-/

namespace Crunch

namespace Parse

variable {fuel l line : Nat} {t : Token} {ts : List Placed}

/-! ## The levels -/

theorem level_chain (hl : l < UnaryOp.negate.level) (hne : l ≠ UnaryOp.not.level) :
    level (fuel + 1) l ts = level fuel (l + 1) ts >>= fun (a, rest) => chain fuel l a rest := by
  rw [level.eq_def]
  simp only [if_neg hne, if_pos hl]

theorem level_not :
    level (fuel + 1) 3 ((.keyword .not, line) :: ts) =
      level fuel 3 ts >>= fun (e, rest) => .ok (.unary line .not e, rest) := by
  rw [level.eq_def]
  rfl

theorem level_plain (h : t ≠ .keyword .not) :
    level (fuel + 1) 3 ((t, line) :: ts) = level fuel 4 ((t, line) :: ts) := by
  rw [level.eq_def]
  refine (if_pos rfl).trans ?_
  split
  · rename_i heq
    cases heq
    exact absurd rfl h
  · rfl

theorem level_sign {op : UnaryOp} (h : sign? t = some op) :
    level (fuel + 1) 11 ((t, line) :: ts) =
      level fuel 11 ts >>= fun (e, rest) => .ok (.unary line op e, rest) := by
  rw [level.eq_def]
  simp only [h]
  rfl

theorem level_unsigned (h : sign? t = none) :
    level (fuel + 1) 11 ((t, line) :: ts) = power fuel ((t, line) :: ts) := by
  rw [level.eq_def]
  simp only [h]
  rfl

/-- The parser of a level: 12 is the power and 13 an operand. -/
def parse (fuel l : Nat) (ts : List Placed) : Outcome (Read Expr) :=
  if l ≤ 11 then level fuel l ts
  else if l = 12 then power fuel ts
  else do
    let (e, rest) ← primary fuel ts
    postfixes fuel e rest

theorem parse_eq_level (hl : l ≤ 11) : parse fuel l ts = level fuel l ts := if_pos hl

theorem power_eq :
    power (fuel + 1) ts = parse fuel 13 ts >>= fun (base, rest) =>
      match rest with
      | (.mark .starStar, line) :: rest =>
        level fuel 11 (skipLines rest) >>= fun (b, rest) => .ok (.binary line .power base b, rest)
      | _ => .ok (base, rest) := by
  rw [power.eq_def]
  cases hp : primary fuel ts with
  | error e => simp [parse, hp, bind, Except.bind]
  | ok r =>
    simp only [parse, hp, bind, Except.bind]
    rfl

end Parse

namespace Grammar

open Parse

/-! ## What may follow -/

/-- Whether an expression whose operators have this level or a tighter one ends in front of a token. -/
def stopsAt (l : Nat) : Token → Bool
  | .mark .lParen | .mark .lBracket | .mark .at | .mark .dot => false
  | t => (operator? t).all (·.level < l)

/-- An expression of this level ends in front of these tokens. -/
def Stops (l : Nat) (rest : List Placed) : Prop := ∀ p ∈ rest.head?, stopsAt l p.1 = true

theorem stopsAt_of_le {l l' : Nat} {t : Token} (hl : l ≤ l') (h : stopsAt l t = true) : stopsAt l' t = true := by
  unfold stopsAt at h ⊢
  split at h
  all_goals grind [Option.all_eq_true]

theorem Stops.of_le {l l' : Nat} {rest : List Placed} (hl : l ≤ l') (h : Stops l rest) : Stops l' rest :=
  fun p hp => stopsAt_of_le hl (h p hp)

/-- No operator between operands has the level of the signs. -/
theorem Stops.signed {rest : List Placed} (h : Stops 12 rest) : Stops 11 rest := by
  intro p hp
  have h' := h p hp
  unfold stopsAt at h' ⊢
  split at h'
  any_goals cases h'
  cases ho : operator? p.1 with
  | none => simp_all
  | some op =>
    rw [ho] at h'
    cases op <;> simp_all [BinaryOp.level]

theorem stops_cons {l : Nat} {p : Placed} {rest : List Placed} (h : stopsAt l p.1 = true) :
    Stops l (p :: rest) := by
  intro q hq
  cases hq
  exact h

/-- An expression ends in front of a line end. -/
theorem Stops.breaks {l : Nat} {n rest : List Placed} (hn : Breaks n) (h : Stops l rest) : Stops l (n ++ rest) := by
  cases n with
  | nil => exact h
  | cons p n =>
    refine stops_cons ?_
    rw [hn p List.mem_cons_self]
    rfl

/-! ## Line ends -/

theorem skipLines_breaks {n : List Placed} (hn : Breaks n) (ts : List Placed) : skipLines (n ++ ts) = skipLines ts := by
  induction n with
  | nil => rfl
  | cons p n ih =>
    obtain ⟨t, l⟩ := p
    obtain rfl : t = .newLine := hn _ List.mem_cons_self
    exact ih fun q hq => hn q (List.mem_cons_of_mem _ hq)

theorem skipLines_skipLines (ts : List Placed) : skipLines (skipLines ts) = skipLines ts := by
  fun_induction skipLines ts with
  | case1 _ _ ih => exact ih
  | case2 ts h =>
    unfold skipLines
    split
    · exact absurd rfl (h _ _)
    · rfl

theorem skipLines_cons {t : Token} {l : Nat} {ts : List Placed} (h : t ≠ .newLine) :
    skipLines ((t, l) :: ts) = (t, l) :: ts := by
  unfold skipLines
  split
  · rename_i heq
    cases heq
    exact absurd rfl h
  · rfl

theorem skipLines_mark {m : Mark} {l : Nat} {ts : List Placed} :
    skipLines ((.mark m, l) :: ts) = (.mark m, l) :: ts := rfl

/-- Line ends in front of an expression are skipped, and no more. -/
theorem Expression.skip {l : Nat} {n ts : List Placed} {e : Expr} (h : Expression l ts e) (hn : Breaks n)
    (rest : List Placed) : skipLines (n ++ (ts ++ rest)) = ts ++ rest := by
  obtain ⟨⟨t, line⟩, us, rfl, ht⟩ := h.starts
  rw [skipLines_breaks hn]
  refine skipLines_cons ?_
  rintro rfl
  cases ht

/-! ## Expressions -/

theorem Method.read {ms : List Placed} {m : Member} (h : Method ms m) (line l : Nat) (rest : List Placed) :
    method line (ms ++ (.mark .lParen, l) :: rest) = .ok (m, (.mark .lParen, l) :: rest) := by
  cases h with
  | named => rfl
  | setField hn => simp [method, name, Parse.position, hn, bind, Except.bind, pure, Except.pure]

theorem stopsAt_operator {l : Nat} {t : Token} {op : BinaryOp} (h : operator? t = some op) (hl : op.level < l) :
    stopsAt l t = true := by
  unfold stopsAt
  split
  all_goals simp_all [operator?]

/-- The operands between the operators of a level end in front of the next one. -/
theorem Further.stops {l : Nat} {a e : Expr} {us rest : List Placed} (h : Further l a us e) (hrest : Stops l rest) :
    Stops (l + 1) (us ++ rest) := by
  cases h with
  | done => exact hrest.of_le (Nat.le_succ l)
  | step hop hlevel _ _ _ => exact stops_cons (stopsAt_operator hop (hlevel ▸ Nat.lt_succ_self _))

/-- A name in front of these tokens is not called. -/
def Uncalled (rest : List Placed) : Prop := ∀ p ∈ rest.head?, p.1 ≠ .mark .lParen

theorem Postfixes.uncalled {a e : Expr} {us rest : List Placed} (h : Postfixes a us e) (hrest : Stops 13 rest) :
    Uncalled (us ++ rest) := by
  intro p hp
  cases h with
  | done =>
    rintro heq
    have hp' := hrest p hp
    rw [heq] at hp'
    cases hp'
  | index _ _ | field _ _ | member _ _ _ =>
    cases hp
    nofun

theorem sign?_of_startsAt {l : Nat} {t : Token} (hl : 11 < l) (h : startsAt l t = true) : sign? t = none := by
  unfold sign?
  split
  · simp [startsAt, constant?, Nat.not_le.mpr hl] at h
  · simp [startsAt, constant?, Nat.not_le.mpr hl] at h
  · simp [startsAt, constant?, Nat.not_le.mpr hl] at h
  · rfl

/-- The closing brackets of lists. -/
def Closing (c : Mark) : Prop := c = .rParen ∨ c = .rBracket

theorem Closing.stopsAt {c : Mark} (h : Closing c) : stopsAt 0 (.mark c) = true := by
  obtain rfl | rfl := h
  · rfl
  · rfl

theorem Closing.startsAt {c : Mark} (h : Closing c) : startsAt 0 (.mark c) = false := by
  obtain rfl | rfl := h
  · rfl
  · rfl

theorem Closing.ne_comma {c : Mark} (h : Closing c) : c ≠ .comma := by
  obtain rfl | rfl := h
  · nofun
  · nofun

theorem level_lt_of_stopsAt {l : Nat} {t : Token} {op : BinaryOp} (h : stopsAt l t = true)
    (hop : operator? t = some op) : op.level < l := by
  unfold stopsAt at h
  split at h
  any_goals cases h
  rw [hop] at h
  exact of_decide_eq_true h

theorem chain_done {fuel l : Nat} {a : Expr} {rest : List Placed} (h : Stops l rest) :
    chain (fuel + 1) l a rest = .ok (a, rest) := by
  unfold chain
  split
  · split
    · rename_i op hop
      have hlt := level_lt_of_stopsAt (h _ rfl) hop
      exact if_neg (Nat.ne_of_lt hlt)
    · rfl
  · rfl

theorem postfixes_done {fuel : Nat} {a : Expr} {rest : List Placed} (h : Stops 13 rest) :
    postfixes (fuel + 1) a rest = .ok (a, rest) := by
  unfold postfixes
  split
  · cases h _ rfl
  · cases h _ rfl
  · cases h _ rfl
  · rfl

theorem primary_constant {fuel line : Nat} {t : Token} {c : Constant} {rest : List Placed} (h : constant? t = some c) :
    primary (fuel + 1) ((t, line) :: rest) = .ok (.constant line c, rest) := by
  unfold constant? at h
  split at h
  all_goals cases h
  all_goals rw [primary.eq_def]; rfl

theorem primary_var {fuel line : Nat} {s : String} {rest : List Placed} (h : Uncalled rest) :
    primary (fuel + 1) ((.identifier s, line) :: rest) = .ok (.var line s, rest) := by
  rw [primary.eq_def]
  dsimp only
  split
  · exact absurd rfl (h _ rfl)
  · rfl

theorem elements_skipLines {fuel line : Nat} {c : Mark} (ts : List Placed) :
    elements fuel c line (skipLines ts) = elements fuel c line ts := by
  cases fuel with
  | zero => simp [elements]
  | succ fuel =>
    simp only [elements]
    rw [skipLines_skipLines]

theorem Items.skip {c : Mark} {ts : List Placed} {es : List Expr} (h : Items c ts es) (hes : es ≠ [])
    (rest : List Placed) : ∃ t l us, skipLines (ts ++ rest) = (t, l) :: us ∧ startsAt 0 t = true := by
  cases h with
  | none _ => exact absurd rfl hes
  | last hn he _ | more hn he _ _ =>
    simp only [List.append_assoc]
    rw [he.skip hn]
    obtain ⟨⟨t, l⟩, us, rfl, ht⟩ := he.starts
    exact ⟨t, l, _, rfl, ht⟩

/-- A list is read when its elements are, if it has any. -/
theorem Items.read_list {c : Mark} {ts rest : List Placed} {es : List Expr} {fuel line : Nat} (h : Items c ts es)
    (hc : Closing c) (helements : es ≠ [] → elements fuel c line (ts ++ rest) = .ok (es, rest)) :
    list (fuel + 1) c line (ts ++ rest) = .ok (es, rest) := by
  unfold list
  by_cases hes : es = []
  · subst hes
    cases h with
    | none hn =>
      rw [List.append_assoc, skipLines_breaks hn]
      exact if_pos rfl
  · obtain ⟨t, l, us, hskip, ht⟩ := h.skip hes rest
    have hne : t ≠ .mark c := by
      rintro rfl
      rw [hc.startsAt] at ht
      cases ht
    rw [hskip]
    dsimp only
    rw [if_neg hne, ← hskip, elements_skipLines]
    exact helements hes

mutual

theorem Expression.read {l : Nat} {ts : List Placed} {e : Expr} (h : Expression l ts e) (fuel : Nat)
    (rest : List Placed) (hfuel : 16 * ts.length + 14 ≤ fuel + l) (hrest : Stops l rest) :
    parse fuel l (ts ++ rest) = .ok (e, rest) := by
  match h with
  | @Expression.chain l ts us a e hl hne ha hus =>
    obtain ⟨fuel, rfl⟩ := Nat.exists_eq_add_one.mpr (show 0 < fuel by omega)
    have hpos := ha.length_pos
    simp only [List.length_append] at hfuel
    have hleft := ha.read fuel (us ++ rest) (by omega) (hus.stops hrest)
    have hright := hus.read fuel rest hl (by omega) hrest
    rw [parse_eq_level (by omega)] at hleft ⊢
    rw [level_chain hl hne, List.append_assoc, hleft]
    exact hright
  | @Expression.not ts e line he =>
    obtain ⟨fuel, rfl⟩ := Nat.exists_eq_add_one.mpr (show 0 < fuel by omega)
    simp only [List.length_cons] at hfuel
    have hoperand := he.read fuel rest (by omega) hrest
    rw [parse_eq_level (by omega)] at hoperand ⊢
    rw [List.cons_append, level_not, hoperand]
    rfl
  | @Expression.plain ts e he =>
    obtain ⟨fuel, rfl⟩ := Nat.exists_eq_add_one.mpr (show 0 < fuel by omega)
    have hinner := he.read fuel rest (by omega) (hrest.of_le (Nat.le_succ 3))
    obtain ⟨⟨t, line⟩, ts', rfl, ht⟩ := he.starts
    rw [parse_eq_level (by omega)] at hinner ⊢
    rw [List.cons_append, level_plain]
    · exact hinner
    · rintro rfl
      cases ht
  | @Expression.sign t op ts e line hop he =>
    obtain ⟨fuel, rfl⟩ := Nat.exists_eq_add_one.mpr (show 0 < fuel by omega)
    simp only [List.length_cons] at hfuel
    have hoperand := he.read fuel rest (by omega) hrest
    rw [parse_eq_level (by omega)] at hoperand ⊢
    rw [List.cons_append, level_sign hop, hoperand]
    rfl
  | @Expression.unsigned ts e he =>
    obtain ⟨fuel, rfl⟩ := Nat.exists_eq_add_one.mpr (show 0 < fuel by omega)
    have hinner := he.read fuel rest (by omega) (hrest.of_le (Nat.le_succ 11))
    obtain ⟨⟨t, line⟩, ts', rfl, ht⟩ := he.starts
    rw [parse_eq_level (by omega), List.cons_append, level_unsigned]
    · exact hinner
    · exact sign?_of_startsAt (by omega) ht
  | @Expression.power ts n us a b line ha hn hb =>
    obtain ⟨fuel, rfl⟩ := Nat.exists_eq_add_one.mpr (show 0 < fuel by omega)
    simp only [List.length_append, List.length_cons] at hfuel
    have hbase := ha.read fuel ((.mark .starStar, line) :: (n ++ us ++ rest)) (by omega) (stops_cons rfl)
    have hexponent := hb.read fuel rest (by omega) hrest.signed
    rw [parse_eq_level (by omega)] at hexponent
    show power (fuel + 1) (ts ++ (.mark .starStar, line) :: (n ++ us) ++ rest) = _
    rw [power_eq, List.append_assoc, List.cons_append, hbase]
    show level fuel 11 (skipLines (n ++ us ++ rest)) >>= _ = _
    rw [List.append_assoc, hb.skip hn, hexponent]
    rfl
  | @Expression.operand ts e he =>
    obtain ⟨fuel, rfl⟩ := Nat.exists_eq_add_one.mpr (show 0 < fuel by omega)
    have hbase := he.read fuel rest (by omega) (hrest.of_le (Nat.le_succ 12))
    show power (fuel + 1) (ts ++ rest) = _
    rw [power_eq, hbase]
    simp only [bind, Except.bind]
    split
    · cases hrest _ rfl
    · rfl
  | @Expression.postfixed ts us a e ha hus =>
    simp only [List.length_append] at hfuel
    have hprimary := ha.read fuel (us ++ rest) (by omega) (hus.uncalled hrest)
    have hpostfixes := hus.read fuel rest (by omega) hrest
    show primary fuel (ts ++ us ++ rest) >>= _ = _
    rw [List.append_assoc, hprimary]
    exact hpostfixes

theorem Further.read {l : Nat} {a e : Expr} {ts : List Placed} (h : Further l a ts e) (fuel : Nat)
    (rest : List Placed) (hl : l < 11) (hfuel : 16 * ts.length < fuel) (hrest : Stops l rest) :
    chain fuel l a (ts ++ rest) = .ok (e, rest) := by
  match h with
  | .done =>
    obtain ⟨fuel, rfl⟩ := Nat.exists_eq_add_one.mpr (Nat.zero_lt_of_lt hfuel)
    exact chain_done hrest
  | @Further.step l t op n ts us a b e line hop hlevel hn hb hus =>
    obtain ⟨fuel, rfl⟩ := Nat.exists_eq_add_one.mpr (Nat.zero_lt_of_lt hfuel)
    simp only [List.length_append, List.length_cons] at hfuel
    have hright := hb.read fuel (us ++ rest) (by omega) (hus.stops hrest)
    have hfurther := hus.read fuel rest hl (by omega) hrest
    rw [parse_eq_level (by omega)] at hright
    simp only [List.cons_append, List.append_assoc, chain, hop]
    rw [if_pos hlevel, hb.skip hn, hright]
    exact hfurther

theorem Primary.read {e : Expr} {ts : List Placed} (h : Primary ts e) (fuel : Nat)
    (rest : List Placed) (hfuel : 16 * ts.length < fuel) (hrest : Uncalled rest) :
    primary fuel (ts ++ rest) = .ok (e, rest) := by
  obtain ⟨fuel, rfl⟩ := Nat.exists_eq_add_one.mpr (Nat.zero_lt_of_lt hfuel)
  match h with
  | .constant hc => exact primary_constant hc
  | .var => exact primary_var hrest
  | @Primary.call s ts es line l hes =>
    simp only [List.length_cons] at hfuel
    obtain ⟨fuel, rfl⟩ := Nat.exists_eq_add_one.mpr (show 0 < fuel by omega)
    have hlist := hes.read_list (.inl rfl) (hes.read fuel line rest (.inl rfl) (by omega))
    simp only [List.cons_append, primary]
    rw [hlist]
    rfl
  | @Primary.group n ts m e l l' hn he hm =>
    simp only [List.length_append, List.length_cons] at hfuel
    have hinner := he.read fuel (m ++ (.mark .rParen, l') :: rest) (by omega) (.breaks hm (stops_cons rfl))
    rw [parse_eq_level (by omega)] at hinner
    simp only [List.cons_append, List.append_assoc, List.nil_append, primary]
    rw [he.skip hn, hinner]
    simp only [bind, Except.bind, skipLines_breaks hm]
    rfl
  | @Primary.collection ts es line hes =>
    simp only [List.length_cons] at hfuel
    obtain ⟨fuel, rfl⟩ := Nat.exists_eq_add_one.mpr (show 0 < fuel by omega)
    have hlist := hes.read_list (.inr rfl) (hes.read fuel line rest (.inr rfl) (by omega))
    simp only [List.cons_append, primary]
    rw [hlist]
    rfl

theorem Postfixes.read {a e : Expr} {ts : List Placed} (h : Postfixes a ts e) (fuel : Nat)
    (rest : List Placed) (hfuel : 16 * ts.length < fuel) (hrest : Stops 13 rest) :
    postfixes fuel a (ts ++ rest) = .ok (e, rest) := by
  obtain ⟨fuel, rfl⟩ := Nat.exists_eq_add_one.mpr (Nat.zero_lt_of_lt hfuel)
  match h with
  | .done => exact postfixes_done hrest
  | @Postfixes.index ts us a i e line l hi hus =>
    simp only [List.length_append, List.length_cons] at hfuel
    have hindex := hi.read fuel ((.mark .rBracket, l) :: (us ++ rest)) (by omega) (stops_cons rfl)
    have hfurther := hus.read fuel rest (by omega) hrest
    rw [parse_eq_level (by omega)] at hindex
    simp only [List.cons_append, List.append_assoc, postfixes]
    rw [hindex]
    exact hfurther
  | @Postfixes.field n us a e line l hn hus =>
    simp only [List.length_cons] at hfuel
    have hfurther := hus.read fuel rest (by omega) hrest
    simp only [List.cons_append, postfixes, Parse.position, if_pos hn]
    exact hfurther
  | @Postfixes.member m ms ts us a e es line l hm hes hus =>
    simp only [List.length_append, List.length_cons] at hfuel
    obtain ⟨fuel, rfl⟩ := Nat.exists_eq_add_one.mpr (show 0 < fuel by omega)
    have hlist := hes.read_list (.inl rfl) (hes.read fuel l (us ++ rest) (.inl rfl) (by omega))
    have hfurther := hus.read (fuel + 1) rest (by omega) hrest
    simp only [List.cons_append, List.append_assoc, postfixes]
    rw [hm.read]
    simp only [bind, Except.bind, expect, if_pos]
    rw [hlist]
    exact hfurther

theorem Items.read {c : Mark} {ts : List Placed} {es : List Expr} (h : Items c ts es) (fuel line : Nat)
    (rest : List Placed) (hc : Closing c) (hfuel : 16 * ts.length ≤ fuel) (hes : es ≠ []) :
    elements fuel c line (ts ++ rest) = .ok (es, rest) := by
  match h with
  | .none _ => exact absurd rfl hes
  | @Items.last c n ts m e l hn he hm =>
    simp only [List.length_append, List.length_cons] at hfuel
    obtain ⟨fuel, rfl⟩ := Nat.exists_eq_add_one.mpr (show 0 < fuel by omega)
    have hlast := he.read fuel (m ++ (.mark c, l) :: rest) (by omega) (.breaks hm (stops_cons hc.stopsAt))
    rw [parse_eq_level (by omega)] at hlast
    simp only [List.cons_append, List.append_assoc, List.nil_append, elements]
    rw [he.skip hn, hlast]
    simp only [bind, Except.bind, skipLines_breaks hm]
    rw [skipLines_mark]
    exact if_pos rfl
  | @Items.more c n ts m us e e' es l hn he hm hes' =>
    simp only [List.length_append, List.length_cons] at hfuel
    obtain ⟨fuel, rfl⟩ := Nat.exists_eq_add_one.mpr (show 0 < fuel by omega)
    have hfirst := he.read fuel (m ++ (.mark .comma, l) :: (us ++ rest)) (by omega) (.breaks hm (stops_cons rfl))
    have hfurther := hes'.read fuel line rest hc (by omega) nofun
    rw [parse_eq_level (by omega)] at hfirst
    simp only [List.cons_append, List.append_assoc, elements]
    rw [he.skip hn, hfirst]
    simp only [bind, Except.bind, skipLines_breaks hm]
    rw [skipLines_mark]
    dsimp only
    rw [if_neg (by simpa using hc.ne_comma.symm), if_pos rfl, hfurther]
    rfl

end

/-! ## No assignment inside an expression -/

/-- No token here makes an assignment of the name in front of it. -/
def Unassigned (ts : List Placed) : Prop := ∀ p ∈ ts, assignment? p.1 = none

theorem Unassigned.append {ts us : List Placed} (ht : Unassigned ts) (hu : Unassigned us) : Unassigned (ts ++ us) :=
  List.forall_mem_append.mpr ⟨ht, hu⟩

theorem Unassigned.cons {t : Token} {l : Nat} {ts : List Placed} (h : assignment? t = none) (ht : Unassigned ts) :
    Unassigned ((t, l) :: ts) :=
  List.forall_mem_cons.mpr ⟨h, ht⟩

theorem unassigned_nil : Unassigned [] := nofun

theorem Breaks.unassigned {n : List Placed} (h : Breaks n) : Unassigned n := by
  intro p hp
  rw [h p hp]
  rfl

theorem assignment?_of_operator {t : Token} {op : BinaryOp} (h : operator? t = some op) : assignment? t = none := by
  unfold operator? at h
  split at h
  all_goals first | rfl | cases h

theorem assignment?_of_sign {t : Token} {op : UnaryOp} (h : sign? t = some op) : assignment? t = none := by
  unfold sign? at h
  split at h
  all_goals first | rfl | cases h

theorem assignment?_of_constant {t : Token} {c : Constant} (h : constant? t = some c) : assignment? t = none := by
  unfold constant? at h
  split at h
  all_goals first | rfl | cases h

theorem Closing.unassigned {c : Mark} (h : Closing c) : assignment? (.mark c) = none := by
  obtain rfl | rfl := h
  · rfl
  · rfl

theorem Method.unassigned {ms : List Placed} {m : Member} (h : Method ms m) : Unassigned ms := by
  cases h with
  | named => exact .cons rfl unassigned_nil
  | setField _ => exact .cons rfl (.cons rfl (.cons rfl unassigned_nil))

mutual

theorem Expression.unassigned {l : Nat} {ts : List Placed} {e : Expr} (h : Expression l ts e) : Unassigned ts := by
  match h with
  | .chain _ _ ha hus => exact ha.unassigned.append hus.unassigned
  | .not he => exact .cons rfl he.unassigned
  | .plain he => exact he.unassigned
  | .sign hop he => exact .cons (assignment?_of_sign hop) he.unassigned
  | .unsigned he => exact he.unassigned
  | .power ha hn hb => exact ha.unassigned.append (.cons rfl (hn.unassigned.append hb.unassigned))
  | .operand he => exact he.unassigned
  | .postfixed ha hus => exact ha.unassigned.append hus.unassigned

theorem Further.unassigned {l : Nat} {a e : Expr} {ts : List Placed} (h : Further l a ts e) : Unassigned ts := by
  match h with
  | .done => exact unassigned_nil
  | .step hop _ hn hb hus =>
    exact .cons (assignment?_of_operator hop) ((hn.unassigned.append hb.unassigned).append hus.unassigned)

theorem Primary.unassigned {e : Expr} {ts : List Placed} (h : Primary ts e) : Unassigned ts := by
  match h with
  | .constant hc => exact .cons (assignment?_of_constant hc) unassigned_nil
  | .var => exact .cons rfl unassigned_nil
  | .call hes => exact .cons rfl (.cons rfl (hes.unassigned (.inl rfl)))
  | .group hn he hm =>
    exact .cons rfl (((hn.unassigned.append he.unassigned).append hm.unassigned).append (.cons rfl unassigned_nil))
  | .collection hes => exact .cons rfl (hes.unassigned (.inr rfl))

theorem Postfixes.unassigned {a e : Expr} {ts : List Placed} (h : Postfixes a ts e) : Unassigned ts := by
  match h with
  | .done => exact unassigned_nil
  | .index hi hus => exact .cons rfl (hi.unassigned.append (.cons rfl hus.unassigned))
  | .field _ hus => exact .cons rfl (.cons rfl hus.unassigned)
  | .member hm hes hus =>
    exact .cons rfl (hm.unassigned.append (.cons rfl ((hes.unassigned (.inl rfl)).append hus.unassigned)))

theorem Items.unassigned {c : Mark} {ts : List Placed} {es : List Expr} (h : Items c ts es) (hc : Closing c) :
    Unassigned ts := by
  match h with
  | .none hn => exact hn.unassigned.append (.cons hc.unassigned unassigned_nil)
  | .last hn he hm =>
    exact ((hn.unassigned.append he.unassigned).append hm.unassigned).append (.cons hc.unassigned unassigned_nil)
  | .more hn he hm hes =>
    exact ((hn.unassigned.append he.unassigned).append hm.unassigned).append (.cons rfl (hes.unassigned hc))

end

/-- The token after a name that starts an expression makes no assignment. -/
theorem Expression.unassigned_next {l : Nat} {p : Placed} {ts rest : List Placed} {e : Expr}
    (h : Expression l (p :: ts) e) (hrest : ∀ p ∈ rest.head?, assignment? p.1 = none) :
    ∀ q ∈ (p :: ts ++ rest).tail.head?, assignment? q.1 = none := by
  intro q hq
  cases ts with
  | nil => exact hrest q hq
  | cons _ ts =>
    cases hq
    exact h.unassigned q (List.mem_cons_of_mem _ List.mem_cons_self)

/-! ## Statements -/

/-- No statement goes on in front of these tokens. -/
structure Quits (rest : List Placed) : Prop where
  stops : Stops 0 rest
  unassigned : ∀ p ∈ rest.head?, assignment? p.1 = none
  else_none : continuation? .else rest = none
  catch_none : continuation? .catch rest = none

theorem Expression.read_expr {ts rest : List Placed} {e : Expr} {fuel : Nat} (h : Expression 0 ts e)
    (hfuel : 16 * ts.length + 14 ≤ fuel) (hrest : Stops 0 rest) : expr fuel (ts ++ rest) = .ok (e, rest) :=
  h.read fuel rest hfuel hrest

theorem Range.read {ts rest : List Placed} {src : Source} {fuel : Nat} (h : Range ts src)
    (hfuel : 16 * ts.length + 14 ≤ fuel) (hrest : Stops 0 rest)
    (hrange : ∀ p ∈ rest.head?, p.1 ≠ .mark .dotDot ∧ p.1 ≠ .mark .dotDotEq) :
    source fuel (ts ++ rest) = .ok (src, rest) := by
  cases h with
  | elements he =>
    unfold source
    rw [he.read_expr hfuel hrest]
    simp only [bind, Except.bind]
    split
    · exact absurd rfl (hrange _ rfl).1
    · exact absurd rfl (hrange _ rfl).2
    · rfl
  | @exclusive ts us a b l ha hb =>
    simp only [List.length_append, List.length_cons] at hfuel
    rw [List.append_assoc, List.cons_append, source, ha.read_expr (by omega) (stops_cons rfl)]
    simp only [bind, Except.bind]
    rw [hb.read_expr (by omega) hrest]
    rfl
  | @inclusive ts us a b l ha hb =>
    simp only [List.length_append, List.length_cons] at hfuel
    rw [List.append_assoc, List.cons_append, source, ha.read_expr (by omega) (stops_cons rfl)]
    simp only [bind, Except.bind]
    rw [hb.read_expr (by omega) hrest]
    rfl

theorem statement_simple {fuel line l : Nat} {t : Token} {ts : List Placed} (h : startsAt 0 t = true) :
    statement (fuel + 1) line ((t, l) :: ts) = simple fuel line ((t, l) :: ts) := by
  rw [statement.eq_def]
  dsimp only
  split
  any_goals
    rename_i heq
    cases heq
    cases h
  rfl

theorem simple_expression {fuel line : Nat} {ts : List Placed} (h : ∀ p ∈ ts.tail.head?, assignment? p.1 = none) :
    simple fuel line ts = expr fuel ts >>= fun (e, rest) => .ok (.expression line e, rest) := by
  unfold simple
  split
  · rw [h _ rfl]
    rfl
  · rfl

theorem simple_assign {fuel line l l' : Nat} {s : String} {ts : List Placed} (h : isReserved s = false) :
    simple fuel line ((.identifier s, l) :: (.mark .equals, l') :: ts) =
      expr fuel ts >>= fun (e, rest) => .ok (.assign l' s e, rest) := by
  simp only [simple, assignment?, h]
  rfl

theorem simple_compound {fuel line l l' : Nat} {s : String} {t : Token} {op : BinaryOp} {ts : List Placed}
    (hop : assignment? t = some (some op)) (h : isReserved s = false) :
    simple fuel line ((.identifier s, l) :: (t, l') :: ts) =
      expr fuel ts >>= fun (e, rest) => .ok (.compound l' s op e, rest) := by
  simp only [simple, hop, h]
  rfl

theorem variableName_of_unreserved {s : String} {line l : Nat} {rest : List Placed} (h : isReserved s = false) :
    variableName line ((.identifier s, l) :: rest) = .ok (s, rest) := by
  simp only [variableName, name, bind, Except.bind, h]
  rfl

theorem expect_cons {t : Token} {place : String} {line l : Nat} {rest : List Placed} :
    expect t place line ((t, l) :: rest) = .ok (l, rest) := if_pos rfl

theorem continuation_breaks {k : Keyword} {n ts : List Placed} (hn : Breaks n) {l : Nat} :
    continuation? k (n ++ (.keyword k, l) :: ts) = some (l, ts) := by
  unfold continuation?
  rw [skipLines_breaks hn]
  exact if_pos rfl

theorem Block.starts {ts : List Placed} {body : List Statement} (h : Block ts body) :
    ∃ l us, ts = (.keyword .do, l) :: us := by
  cases h with
  | braces _ => exact ⟨_, _, rfl⟩

theorem Block.unranged {ts rest : List Placed} {body : List Statement} (h : Block ts body) :
    ∀ p ∈ (ts ++ rest).head?, p.1 ≠ .mark .dotDot ∧ p.1 ≠ .mark .dotDotEq := by
  obtain ⟨l, us, rfl⟩ := h.starts
  rintro p ⟨⟩
  exact ⟨nofun, nofun⟩

/-- An expression ends in front of a block. -/
theorem Block.stops {ts rest : List Placed} {body : List Statement} (h : Block ts body) : Stops 0 (ts ++ rest) := by
  obtain ⟨l, us, rfl⟩ := h.starts
  exact stops_cons rfl

theorem continuation_separators {k : Keyword} {n rest : List Placed} (hn : Separators n)
    (hrest : ∀ p ∈ rest.head?, p.1 ≠ .newLine ∧ p.1 ≠ .keyword k) : continuation? k (n ++ rest) = none := by
  induction n with
  | nil =>
    cases rest with
    | nil => rfl
    | cons p rest =>
      obtain ⟨t, l⟩ := p
      have hp := hrest _ rfl
      unfold continuation?
      rw [List.nil_append, skipLines_cons hp.1]
      exact if_neg hp.2
  | cons p n ih =>
    obtain ⟨t, l⟩ := p
    have hp : isSeparator t = true := hn _ List.mem_cons_self
    unfold isSeparator at hp
    split at hp
    · exact ih fun q hq => hn q (List.mem_cons_of_mem _ hq)
    · rfl
    · cases hp

theorem Sequence.continuation_none {k : Keyword} {ts close rest : List Placed} {ss : List Statement}
    {inBlock : Bool} (h : Sequence ts ss) (hclose : Closes inBlock close rest) (hk : opens (.keyword k) = false) :
    continuation? k (ts ++ close) = none := by
  cases h with
  | done hn =>
    refine continuation_separators hn fun p hp => ?_
    cases hclose with
    | brace =>
      cases hp
      exact ⟨nofun, nofun⟩
    | theEnd => cases hp
  | step hn hs _ _ =>
    rw [List.append_assoc, List.append_assoc]
    refine continuation_separators hn fun p hp => ?_
    obtain ⟨q, us, rfl, hq⟩ := hs.starts
    cases hp
    constructor
    · intro heq
      rw [heq] at hq
      cases hq
    · intro heq
      rw [heq, hk] at hq
      cases hq

theorem endsStatement_of_closes {ts close rest : List Placed} {inBlock : Bool}
    (hhead : ∀ p ∈ ts.head?, isSeparator p.1 = true) (hclose : Closes inBlock close rest) :
    endsStatement inBlock (ts ++ close) = .ok () := by
  cases ts with
  | nil =>
    cases hclose with
    | brace =>
      rw [List.nil_append, endsStatement.eq_def]
      exact if_pos (And.intro rfl rfl)
    | theEnd => rfl
  | cons p ts =>
    obtain ⟨t, l⟩ := p
    have ht : isSeparator t = true := hhead _ rfl
    unfold isSeparator at ht
    split at ht
    · rfl
    · rfl
    · cases ht

theorem Sequence.quits {ts close rest : List Placed} {ss : List Statement} {inBlock : Bool} (h : Sequence ts ss)
    (hhead : ∀ p ∈ ts.head?, isSeparator p.1 = true) (hclose : Closes inBlock close rest) :
    Quits (ts ++ close) := by
  have hends := ended_of_endsStatement (endsStatement_of_closes hhead hclose)
  refine ⟨?_, ?_, h.continuation_none hclose rfl, h.continuation_none hclose rfl⟩
  · intro p hp
    obtain ht | ⟨-, ht⟩ := hends p hp
    · unfold isSeparator at ht
      split at ht
      all_goals grind [stopsAt, operator?]
    · rw [ht]
      rfl
  · intro p hp
    obtain ht | ⟨-, ht⟩ := hends p hp
    · unfold isSeparator at ht
      split at ht
      all_goals grind [assignment?]
    · rw [ht]
      rfl

theorem skipSeparators_append {n : List Placed} (hn : Separators n) (ts : List Placed) :
    skipSeparators (n ++ ts) = skipSeparators ts := by
  induction n with
  | nil => rfl
  | cons p n ih =>
    obtain ⟨t, l⟩ := p
    have hp : isSeparator t = true := hn _ List.mem_cons_self
    have hn' := ih fun q hq => hn q (List.mem_cons_of_mem _ hq)
    unfold isSeparator at hp
    split at hp
    · exact hn'
    · exact hn'
    · cases hp

theorem skipSeparators_cons {t : Token} {l : Nat} {ts : List Placed} (h : isSeparator t = false) :
    skipSeparators ((t, l) :: ts) = (t, l) :: ts := by
  unfold skipSeparators
  split
  · rename_i heq
    cases heq
    cases h
  · rename_i heq
    cases heq
    cases h
  · rfl

theorem isSeparator_of_opens {t : Token} (h : opens t = true) : isSeparator t = false := by
  unfold isSeparator
  split
  · cases h
  · cases h
  · rfl

mutual

theorem Sentence.read {ts : List Placed} {s : Statement} (h : Sentence ts s) (fuel line : Nat)
    (rest : List Placed) (hline : ∀ p ∈ ts.head?, p.2 = line) (hfuel : 16 * ts.length + 15 ≤ fuel)
    (hrest : Quits rest) : statement fuel line (ts ++ rest) = .ok (s, rest) := by
  obtain ⟨fuel, rfl⟩ := Nat.exists_eq_add_one.mpr (show 0 < fuel by omega)
  match h with
  | @Sentence.expression t ts e l he =>
    obtain rfl : l = line := hline _ rfl
    obtain ⟨p, us, heq, hp⟩ := he.starts
    cases heq
    rw [List.cons_append, statement_simple hp, ← List.cons_append,
      simple_expression (he.unassigned_next hrest.unassigned), he.read_expr (by omega) hrest.stops]
    rfl
  | @Sentence.declare s ts e l l' l'' hs he =>
    obtain rfl : l = line := hline _ rfl
    simp only [List.length_cons] at hfuel
    simp only [List.cons_append, statement, variableName_of_unreserved hs, bind, Except.bind, expect_cons]
    rw [he.read_expr (by omega) hrest.stops]
    rfl
  | @Sentence.assign s ts e l l' hs he =>
    simp only [List.length_cons] at hfuel
    rw [List.cons_append, statement_simple rfl, List.cons_append, simple_assign hs,
      he.read_expr (by omega) hrest.stops]
    rfl
  | @Sentence.compound s t op ts e l l' hop hs he =>
    simp only [List.length_cons] at hfuel
    rw [List.cons_append, statement_simple rfl, List.cons_append, simple_compound hop hs,
      he.read_expr (by omega) hrest.stops]
    rfl
  | @Sentence.choice ts us vs c body bs otherwise l hc hbody hbs =>
    obtain rfl : l = line := hline _ rfl
    simp only [List.length_cons, List.length_append] at hfuel
    have hblock := hbody.read fuel l (vs ++ rest) (by omega)
    have hbranches := hbs.read fuel l rest (by omega) hrest
    simp only [List.cons_append, List.append_assoc, statement]
    rw [hc.read_expr (by omega) hbody.stops]
    simp only [bind, Except.bind]
    rw [hblock]
    dsimp only
    rw [hbranches]
    rfl
  | @Sentence.loop ts us c body l hc hbody =>
    obtain rfl : l = line := hline _ rfl
    simp only [List.length_cons, List.length_append] at hfuel
    have hblock := hbody.read fuel l rest (by omega)
    simp only [List.cons_append, List.append_assoc, statement]
    rw [hc.read_expr (by omega) hbody.stops]
    simp only [bind, Except.bind]
    rw [hblock]
    rfl
  | @Sentence.each s ts us src body l l' l'' hs hsrc hbody =>
    obtain rfl : l = line := hline _ rfl
    simp only [List.length_cons, List.length_append] at hfuel
    have hblock := hbody.read fuel l rest (by omega)
    simp only [List.cons_append, List.append_assoc, statement, variableName_of_unreserved hs, bind, Except.bind,
      expect_cons]
    rw [hsrc.read (by omega) hbody.stops hbody.unranged]
    dsimp only
    rw [hblock]
    rfl
  | @Sentence.raise s l l' =>
    obtain rfl : l = line := hline _ rfl
    simp only [List.cons_append, List.nil_append, statement, name]
    rfl
  | @Sentence.attempt ts us body handler hs l hbody hhs =>
    obtain rfl : l = line := hline _ rfl
    simp only [List.length_cons, List.length_append] at hfuel
    have hblock := hbody.read fuel l (us ++ rest) (by omega)
    have hhandlers := hhs.read fuel rest (by omega) hrest
    simp only [List.cons_append, List.append_assoc, statement]
    rw [hblock]
    simp only [bind, Except.bind]
    rw [hhandlers]
    rfl
  | @Sentence.load s l l' =>
    obtain rfl : l = line := hline _ rfl
    simp only [List.cons_append, List.nil_append, statement, name]
    rfl

theorem Branches.read {ts : List Placed} {bs : List (Expr × List Statement)} {otherwise : Option (List Statement)}
    (h : Branches ts bs otherwise) (fuel line : Nat) (rest : List Placed) (hfuel : 16 * ts.length < fuel)
    (hrest : Quits rest) : branches fuel line (ts ++ rest) = .ok ((bs, otherwise), rest) := by
  obtain ⟨fuel, rfl⟩ := Nat.exists_eq_add_one.mpr (Nat.zero_lt_of_lt hfuel)
  match h with
  | .done => simp only [List.nil_append, branches, hrest.else_none]
  | @Branches.elseIf n ts us vs c body bs otherwise l l' hn hc hbody hbs =>
    simp only [List.length_append, List.length_cons] at hfuel
    have hblock := hbody.read fuel line (vs ++ rest) (by omega)
    have hbranches := hbs.read fuel line rest (by omega) hrest
    simp only [List.cons_append, List.append_assoc, branches, continuation_breaks hn]
    rw [hc.read_expr (by omega) hbody.stops]
    simp only [bind, Except.bind]
    rw [hblock]
    dsimp only
    rw [hbranches]
    rfl
  | @Branches.otherwise n us body l hn hbody =>
    simp only [List.length_append, List.length_cons] at hfuel
    have hblock := hbody.read fuel line rest (by omega)
    obtain ⟨l', us, rfl⟩ := hbody.starts
    simp only [List.cons_append, List.append_assoc, branches, continuation_breaks hn] at hblock ⊢
    rw [hblock]
    rfl

theorem Handlers.read {ts : List Placed} {hs : List (Handler Statement)} (h : Handlers ts hs) (fuel : Nat)
    (rest : List Placed) (hfuel : 16 * ts.length < fuel) (hrest : Quits rest) :
    handlers fuel (ts ++ rest) = .ok (hs, rest) := by
  obtain ⟨fuel, rfl⟩ := Nat.exists_eq_add_one.mpr (Nat.zero_lt_of_lt hfuel)
  match h with
  | .done => simp only [List.nil_append, handlers, hrest.catch_none]
  | @Handlers.step s n us vs body hs line l hn hbody hhs =>
    simp only [List.length_append, List.length_cons] at hfuel
    have hblock := hbody.read fuel line (vs ++ rest) (by omega)
    have hhandlers := hhs.read fuel rest (by omega) hrest
    simp only [List.cons_append, List.append_assoc, handlers, continuation_breaks hn, name, bind, Except.bind]
    rw [hblock]
    dsimp only
    rw [hhandlers]
    rfl

theorem Block.read {ts : List Placed} {body : List Statement} (h : Block ts body) (fuel line : Nat)
    (rest : List Placed) (hfuel : 16 * ts.length ≤ fuel) : block fuel line (ts ++ rest) = .ok (body, rest) := by
  match h with
  | @Block.braces ts body l l' l'' hbody =>
    simp only [List.length_append, List.length_cons] at hfuel
    obtain ⟨fuel, rfl⟩ := Nat.exists_eq_add_one.mpr (show 0 < fuel by omega)
    have hinner := hbody.read fuel l' true _ rest (.brace (l := l'')) (by omega)
    simp only [List.cons_append, List.append_assoc, List.nil_append, block, expect_cons, bind, Except.bind]
    exact hinner

theorem Sequence.read {ts : List Placed} {ss : List Statement} (h : Sequence ts ss) (fuel line : Nat)
    (inBlock : Bool) (close rest : List Placed) (hclose : Closes inBlock close rest)
    (hfuel : 16 * ts.length + 16 ≤ fuel) : statements fuel inBlock line (ts ++ close) = .ok (ss, rest) := by
  obtain ⟨fuel, rfl⟩ := Nat.exists_eq_add_one.mpr (show 0 < fuel by omega)
  match h with
  | .done hn =>
    unfold statements
    rw [skipSeparators_append hn]
    cases hclose with
    | brace => exact if_pos ⟨rfl, rfl⟩
    | theEnd => rfl
  | @Sequence.step n ts us s ss hn hs hhead hss =>
    simp only [List.length_append] at hfuel
    have hpos := hs.length_pos
    have hsentence := fun line hline =>
      hs.read fuel line (us ++ close) hline (by omega) (hss.quits hhead hclose)
    have hfurther := fun line => hss.read fuel line inBlock close rest hclose (by omega)
    obtain ⟨⟨t, l⟩, ts, rfl, ht⟩ := hs.starts
    have hbrace : ¬(inBlock = true ∧ t = .mark .rBrace) := by
      rintro ⟨-, rfl⟩
      cases ht
    unfold statements
    rw [List.append_assoc, List.append_assoc, skipSeparators_append hn, List.cons_append,
      skipSeparators_cons (isSeparator_of_opens ht)]
    dsimp only
    rw [if_neg hbrace, ← List.cons_append, hsentence l (by rintro p ⟨⟩; rfl)]
    simp only [bind, Except.bind]
    rw [endsStatement_of_closes hhead hclose]
    dsimp only
    rw [hfurther]
    rfl

end

end Grammar
/-- What is derived from tokens is read from them. -/
theorem Program.ofTokens_of_sequence {ts : List Placed} {p : Program} (h : Grammar.Sequence ts p) :
    Program.ofTokens ts = .ok p := by
  have hfuel : 16 * ts.length + 16 ≤ Parse.fuelFor ts := Nat.add_le_add_left (by decide) _
  have hread := h.read (Parse.fuelFor ts) 1 false [] [] .theEnd hfuel
  rw [List.append_nil] at hread
  rw [Program.ofTokens, hread]
  rfl

/-- Scripts that are read are read as before with a line end between them, the second one after the first. -/
theorem Program.ofTokens_append_newLine {ts us : List Placed} {p q : Program} (hts : Program.ofTokens ts = .ok p)
    (hus : Program.ofTokens us = .ok q) (line : Nat) :
    Program.ofTokens (ts ++ [(.newLine, line)] ++ us) = .ok (p ++ q) := by
  have hbreak : Grammar.Separators [(.newLine, line)] := List.forall_mem_singleton.mpr rfl
  have hboth := (sequence_of_ofTokens hts).append hbreak (List.cons_ne_nil _ _) (sequence_of_ofTokens hus)
  exact ofTokens_of_sequence hboth

/-- A script that ends with a block, where an `else` could follow, and one that starts with a sign, which could be
an operator, and a bracket, which could hold an index. -/
theorem Program.ofTokens_append_newLine_block :
    let ts : List Placed :=
      [(.keyword .if, 1), (.bool true, 1), (.keyword .do, 1), (.mark .lBrace, 1), (.identifier "x", 1),
        (.mark .rBrace, 1)]
    let us : List Placed := [(.mark .minus, 2), (.mark .lBracket, 2), (.mark .rBracket, 3)]
    let p : Program := [.choice 1 [(.constant 1 (.boolean true), [.expression 1 (.var 1 "x")])] none]
    let q : Program := [.expression 2 (.unary 2 .negate (.collection 2 []))]
    Program.ofTokens ts = .ok p ∧ Program.ofTokens us = .ok q ∧
      Program.ofTokens (ts ++ [(.newLine, 1)] ++ us) = .ok (p ++ q) := by
  intro ts us p q
  have hts : Program.ofTokens ts = .ok p := by cbv
  have hus : Program.ofTokens us = .ok q := by cbv
  exact ⟨hts, hus, ofTokens_append_newLine hts hus 1⟩

end Crunch
