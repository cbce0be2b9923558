import Crunch.Proofs.Evaluation
import Crunch.Proofs.Frame

/-!
# Crunch.Proofs.Execution

Statements keep what the check knows.

* `Statement.leads_exec`: a statement without nulls that the check lets through, carried out on a
  state that fits, ends in a state that fits what the check knows after it, or fails for another
  reason than types.
* `Program.harmless`: a whole script.
-/

namespace Crunch

open Run

/-! ## What the check knows after blocks -/

namespace Env

variable {env env' : Env} {name : String} {t : Ty} {line : Nat}

theorem leave_define : (env.define name t).leave = env.leave := by
  unfold leave define
  cases env.scopes <;> rfl

theorem adopt_eq (ht : env.IsTyped) : env.adopt name t = env := outer_adopt (k := 0) ht

theorem eq_of_assign (ht : env.IsTyped) (h : env.assign line name t = .ok env') :
    env' = env ∧ ∃ target, env.scopes.find? name = some target ∧ target.accepts t = true := by
  obtain ⟨target, hl, h⟩ := Check.ok_of_bind h
  split at h
  · rename_i ha
    cases h
    exact ⟨adopt_eq ht, target, find?_of_lookup hl, ha⟩
  · cases h

theorem IsTyped.enter (h : env.IsTyped) : env.enter.IsTyped := .cons (by simp) h

theorem IsTyped.define (h : env.IsTyped) (ht : t.kind ≠ .noType) : (env.define name t).IsTyped :=
  Scopes.All.define h ht

/-- A block in a scope of its own. -/
theorem leave_block {body : List Statement} (ht : env.IsTyped) (h : Statement.checkAll env.enter body = .ok env')
    (hc : Statement.areCore env.enter body = true) : env'.leave = env :=
  leave_of_checkAll h hc ht

/-- The body of a loop in a scope with the variable of the loop. -/
theorem leave_turn {body : List Statement} (ht : env.IsTyped) (hk : t.kind ≠ .noType)
    (h : Statement.checkAll (env.enter.define name t).enter body = .ok env')
    (hc : Statement.areCore (env.enter.define name t).enter body = true) : env'.leave = env.enter.define name t :=
  leave_block (ht.enter.define hk) h hc

end Env

/-- What handlers find when they start. -/
def Env.handling (env : Env) : Env := env.enter.define errorVariable Ty.literal

theorem Env.leave_handler {env env' : Env} {body : List Statement} (ht : env.IsTyped)
    (h : Statement.checkAll env.handling body = .ok env') (hc : Statement.areCore env.handling body = true) :
    env'.leave = env := by
  have hh : env.handling.leave = env := leave_define
  rw [← hh]
  exact leave_of_checkAll h hc (hh ▸ ht)

/-! ## What the check of a statement makes sure of -/

namespace Statement

variable {env env' : Env} {line : Nat} {name : String} {condition : Expr} {body : List Statement}
  {source : Source} {branches rest : List (Expr × List Statement)} {otherwise : Option (List Statement)}
  {handlers : List (Handler Statement)}

/-- A condition with a block in a scope of its own, which leaves what is known as it is. -/
structure Guards (env : Env) (line : Nat) (condition : Expr) (body : List Statement) : Prop where
  condition : ∃ t, condition.typeIn env = .ok t ∧ condition.isCore env = true ∧ Check.condition line t = .ok ()
  body : ∃ env₁, checkAll env.enter body = .ok env₁ ∧ areCore env.enter body = true ∧ env₁.leave = env

theorem loop_parts (h : (loop line condition body).check env = .ok env')
    (hc : (loop line condition body).isCore env = true) (ht : env.IsTyped) :
    Guards env line condition body ∧ env' = env := by
  rw [check] at h
  rw [isCore, Bool.and_eq_true] at hc
  obtain ⟨t, he, h⟩ := Check.ok_of_bind h
  obtain ⟨_, hcond, h⟩ := Check.ok_of_bind h
  obtain ⟨env₁, hb, h⟩ := Check.ok_of_bind h
  cases h
  have hl := Env.leave_block ht hb hc.2
  exact ⟨⟨⟨t, he, hc.1, hcond⟩, ⟨env₁, hb, hc.2, hl⟩⟩, hl⟩

theorem branches_parts (h : checkBranches line env ((condition, body) :: rest) = .ok env')
    (hc : branchesCore line env ((condition, body) :: rest) = true) (ht : env.IsTyped) :
    Guards env line condition body ∧ checkBranches line env rest = .ok env' ∧ branchesCore line env rest = true := by
  rw [checkBranches] at h
  obtain ⟨t, he, h⟩ := Check.ok_of_bind h
  obtain ⟨_, hcond, h⟩ := Check.ok_of_bind h
  obtain ⟨env₁, hb, h⟩ := Check.ok_of_bind h
  rw [branchesCore, hb, Bool.and_eq_true, Bool.and_eq_true] at hc
  have hl := Env.leave_block ht hb hc.1.2
  simp only [hl] at h hc
  exact ⟨⟨⟨t, he, hc.1.1, hcond⟩, ⟨env₁, hb, hc.1.2, hl⟩⟩, h, hc.2⟩

theorem optional_parts (h : checkOptional env (some body) = .ok env') (hc : optionalCore env (some body) = true)
    (ht : env.IsTyped) :
    (∃ env₁, checkAll env.enter body = .ok env₁ ∧ areCore env.enter body = true ∧ env₁.leave = env) ∧ env' = env := by
  rw [checkOptional] at h
  obtain ⟨env₁, hb, h⟩ := Check.ok_of_bind h
  rw [optionalCore] at hc
  cases h
  have hl := Env.leave_block ht hb hc
  exact ⟨⟨env₁, hb, hc, hl⟩, hl⟩

theorem handlers_parts {handler : Handler Statement} {rest : List (Handler Statement)}
    (h : checkHandlers env (handler :: rest) = .ok env') (hc : handlersCore env (handler :: rest) = true)
    (ht : env.IsTyped) :
    (∃ env₁, checkAll env.handling handler.body = .ok env₁ ∧ areCore env.handling handler.body = true ∧
      env₁.leave = env) ∧ checkHandlers env rest = .ok env' ∧ handlersCore env rest = true := by
  obtain ⟨name, line, body⟩ := handler
  rw [checkHandlers] at h
  obtain ⟨env₁, hb, h⟩ := Check.ok_of_bind h
  rw [handlersCore, hb, Bool.and_eq_true] at hc
  have hl := Env.leave_handler ht hb hc.1
  simp only [hl] at h hc
  exact ⟨⟨env₁, hb, hc.1, hl⟩, h, hc.2⟩

theorem checkBranches_eq (h : checkBranches line env branches = .ok env')
    (hc : branchesCore line env branches = true) (ht : env.IsTyped) : env' = env := by
  induction branches with
  | nil =>
    rw [checkBranches] at h
    cases h
    rfl
  | cons branch rest ih =>
    obtain ⟨-, h, hc⟩ := branches_parts h hc ht
    exact ih h hc

theorem checkOptional_eq (h : checkOptional env otherwise = .ok env') (hc : optionalCore env otherwise = true)
    (ht : env.IsTyped) : env' = env := by
  cases otherwise with
  | none =>
    rw [checkOptional] at h
    cases h
    rfl
  | some body => exact (optional_parts h hc ht).2

theorem checkHandlers_eq (h : checkHandlers env handlers = .ok env') (hc : handlersCore env handlers = true)
    (ht : env.IsTyped) : env' = env := by
  induction handlers with
  | nil =>
    rw [checkHandlers] at h
    cases h
    rfl
  | cons handler rest ih =>
    obtain ⟨-, h, hc⟩ := handlers_parts h hc ht
    exact ih h hc

theorem choice_parts (h : (choice line branches otherwise).check env = .ok env')
    (hc : (choice line branches otherwise).isCore env = true) (ht : env.IsTyped) :
    checkBranches line env branches = .ok env ∧ branchesCore line env branches = true ∧
      checkOptional env otherwise = .ok env ∧ optionalCore env otherwise = true ∧ env' = env := by
  rw [check] at h
  obtain ⟨env₁, hb, ho⟩ := Check.ok_of_bind h
  rw [isCore, hb, Bool.and_eq_true] at hc
  obtain rfl := checkBranches_eq hb hc.1 ht
  obtain rfl := checkOptional_eq ho hc.2 ht
  exact ⟨hb, hc.1, ho, hc.2, rfl⟩

theorem each_parts (h : (each line name source body).check env = .ok env')
    (hc : (each line name source body).isCore env = true) :
    ∃ t env₁, source.typeIn env line = .ok t ∧ source.isCore env = true ∧
      checkAll (env.enter.define name t).enter body = .ok env₁ ∧
      areCore (env.enter.define name t).enter body = true ∧ env' = env₁.leave.leave := by
  rw [check] at h
  obtain ⟨t, hsource, h⟩ := Check.ok_of_bind h
  obtain ⟨env₁, hb, h⟩ := Check.ok_of_bind h
  rw [isCore, hsource, Bool.and_eq_true] at hc
  cases h
  exact ⟨t, env₁, hsource, hc.1, hb, hc.2, rfl⟩

theorem attempt_parts (h : (attempt line body handlers).check env = .ok env')
    (hc : (attempt line body handlers).isCore env = true) (ht : env.IsTyped) :
    (∃ env₁, checkAll env.enter body = .ok env₁ ∧ areCore env.enter body = true ∧ env₁.leave = env) ∧
      checkHandlers env handlers = .ok env ∧ handlersCore env handlers = true ∧ env' = env := by
  rw [check] at h
  obtain ⟨env₁, hb, h⟩ := Check.ok_of_bind h
  rw [isCore, hb, Bool.and_eq_true] at hc
  have hl := Env.leave_block ht hb hc.1
  simp only [hl] at h hc
  obtain rfl := checkHandlers_eq h hc.2 ht
  exact ⟨⟨env₁, hb, hc.1, hl⟩, h, hc.2, rfl⟩

end Statement

/-- What the check of the collection that a `for` runs over makes sure of. -/
theorem Source.elements_parts {env : Env} {line : Nat} {e : Expr} {t : Ty}
    (h : (Source.elements e).typeIn env line = .ok t) :
    ∃ u, e.typeIn env = .ok u ∧ (u.Solid → u.element? = some t) := by
  rw [Source.typeIn] at h
  obtain ⟨u, hu, h⟩ := Check.ok_of_bind h
  refine ⟨u, hu, fun hsolid => ?_⟩
  rw [hsolid.isUntyped, if_neg Bool.false_ne_true] at h
  split at h
  · cases h
    assumption
  · cases h

/-! ## Loops and handlers -/

namespace Run

variable {env env' : Env} {line : Nat} {name : String} {t : Ty} {v : Value}

/-- A condition tells whether to go on. -/
theorem lands_condition (hv : v.HasType t) (h : Check.condition line t = .ok ()) :
    Lands v.condition fun _ => True := by
  unfold Check.condition at h
  split at h
  · rename_i hb
    simp only [Ty.isOrUntyped, hv.tySolid.isUntyped, Bool.false_or] at hb
    obtain ⟨b, rfl⟩ := hv.form hb
    trivial
  · cases h

theorem safe_repeatWhile {condition : Run Value} {body : Run Unit} (hc : Safe env condition (·.HasType t))
    (h : Check.condition line t = .ok ()) (hb : Safe env body fun _ => True) (passes : Nat) :
    Safe env (repeatWhile line condition body passes) fun _ => True := by
  induction passes with
  | zero => exact safe_throw trivial
  | succ passes ih =>
    refine safe_bind safe_checkStop fun _ _ => safe_bind hc fun v hv => ?_
    refine safe_bind (safe_lift (lands_condition hv h)) fun b _ => ?_
    split
    · exact safe_bind hb fun _ _ => ih
    · exact safe_pure trivial

/-- A body in a scope with a variable. -/
theorem safe_withVariable {body : Run Unit} (hv : v.HasType t)
    (hb : Leads (env.enter.define name t) body env') (hl : env'.leave = env) :
    Safe env (nested (define name v >>= fun _ => body)) fun _ => True :=
  safe_nested ((leads_define hv).bind Env.leave_define fun _ => hb) hl

theorem safe_pass {body : Run Unit} (hv : v.HasType t) (hb : Leads (env.enter.define name t).enter body env')
    (hl : env'.leave = env.enter.define name t) : Safe env (pass line name v body) fun _ => True := by
  refine safe_bind safe_checkStop fun _ _ => ?_
  exact safe_withVariable hv (safe_nested hb hl).leads Env.leave_define

theorem safe_eachValue {body : List Value → Run Unit} {vs : List Value} (hvs : ∀ v ∈ vs, v.HasType t)
    (hb : ∀ rest, Leads (env.enter.define name t).enter (body rest) env')
    (hl : env'.leave = env.enter.define name t) : Safe env (eachValue line name body vs) fun _ => True := by
  induction vs with
  | nil => exact safe_pure trivial
  | cons v rest ih =>
    refine safe_bind (safe_pass (hvs v List.mem_cons_self) (hb rest) hl) fun _ _ => ?_
    exact ih fun w hw => hvs w (List.mem_cons_of_mem _ hw)

theorem safe_eachInteger {body : Run Unit} (hb : Leads (env.enter.define name Ty.integer).enter body env')
    (hl : env'.leave = env.enter.define name Ty.integer) (n : Nat) (i : Int64) :
    Safe env (eachInteger line name body n i) fun _ => True := by
  have hvs : ∀ v ∈ (ascending n i).map Value.integer, v.HasType Ty.integer :=
    List.forall_mem_map.mpr fun i _ => ⟨.integer i, rfl⟩
  rw [eachInteger_eq_eachValue]
  exact safe_eachValue hvs (fun _ => hb) hl

/-- Errors that handlers may take are harmless. -/
theorem safe_failure? {x : Run Unit} (hx : Safe env x fun _ => True) :
    Safe env (failure? x) fun f? => ∀ f, f? = some f → f.cause.isTypeError = false := by
  intro s hs
  refine ends_failure?.mpr ((hx s hs).mono (fun _ _ ha => ⟨ha.1, nofun⟩) fun h t ht => ?_)
  cases h with
  | outOfFuel => exact ht
  | error f =>
    simp only
    split
    · refine ⟨ht.1, fun f' hf => ?_⟩
      cases hf
      exact ht.2
    · exact ht

end Run
/-! ## Statements -/

/-- A bound of a range is an integer. -/
theorem lands_bound {line : Nat} {v : Value} {t : Ty} (hv : v.HasType t) (h : Check.bound line t = .ok ()) :
    Lands v.integer? fun _ => True := by
  unfold Check.bound at h
  split at h
  · rename_i hadm
    obtain ⟨n, rfl⟩ : Domain.integer.Holds v := Domain.holds hv hadm
    trivial
  · cases h

mutual

/-- A statement leads from what the check knows before it to what it knows afterwards. -/
theorem Statement.leads_exec (held : List Value) (passes : Nat) (st : Statement) {env env' : Env}
    (h : st.check env = .ok env') (hc : st.isCore env = true) : Leads env (st.exec held passes) env' := by
  intro s hs
  have ht := hs.isTyped
  revert s
  cases st with
  | expression line e =>
    rw [Statement.check] at h
    rw [Statement.exec]
    rw [Statement.isCore] at hc
    obtain ⟨t, he, rfl⟩ := Check.ok_of_map h
    have hrun : Safe env (some <$> e.eval held) fun _ => True := safe_map (Expr.safe_eval he hc) fun _ _ => trivial
    exact hrun.leads
  | declare line name e =>
    rw [Statement.check] at h
    rw [Statement.exec]
    rw [Statement.isCore] at hc
    obtain ⟨t, he, h⟩ := Check.ok_of_bind h
    cases h
    refine (Expr.safe_eval he hc).leads_bind fun v hv => ?_
    exact (leads_define hv).bind Env.leave_define fun _ => (safe_done).leads
  | assign line name e =>
    rw [Statement.check] at h
    rw [Statement.exec]
    rw [Statement.isCore] at hc
    obtain ⟨t, he, h⟩ := Check.ok_of_bind h
    obtain ⟨rfl, target, hf, ha⟩ := Env.eq_of_assign ht h
    refine (safe_bind (Expr.safe_eval he hc) fun v hv => ?_).leads
    exact safe_bind (safe_store hf hv.solid (hv.type ▸ ha)) fun _ _ => safe_done
  | compound line name op e =>
    rw [Statement.check] at h
    rw [Statement.exec]
    rw [Statement.isCore, Bool.and_eq_true, bne_iff_ne] at hc
    obtain ⟨target, hl, h⟩ := Check.ok_of_bind h
    obtain ⟨t, he, h⟩ := Check.ok_of_bind h
    split at h
    · rename_i w hw
      obtain ⟨rfl, target', hf, ha⟩ := Env.eq_of_assign ht h
      refine (safe_bind (Expr.safe_operand held e he hc.2) fun r hr => ?_).leads
      have hname : (Operand.named name).HasType env' target := Env.find?_of_lookup hl
      refine safe_bind (safe_combine hc.1 hname hr hw) fun v hv => ?_
      exact safe_bind (safe_store hf hv.solid (hv.type ▸ ha)) fun _ _ => safe_done
    · cases h
  | choice line branches otherwise =>
    rw [Statement.exec]
    obtain ⟨hb, hbc, ho, hoc, rfl⟩ := Statement.choice_parts h hc ht
    refine (safe_bind (Statement.safe_execBranches held passes branches hb hbc ?_) fun _ _ => safe_done).leads
    exact Statement.safe_execOptional held passes otherwise ho hoc
  | loop line condition body =>
    rw [Statement.exec]
    obtain ⟨⟨⟨t, he, hec, hcond⟩, ⟨env₁, hb, hbc, hl⟩⟩, rfl⟩ := Statement.loop_parts h hc ht
    have hbody := safe_nested (Statement.leads_execAll held passes body hb hbc) hl
    exact (safe_bind (safe_repeatWhile (Expr.safe_eval he hec) hcond hbody passes) fun _ _ => safe_done).leads
  | each line name source body =>
    obtain ⟨t, env₁, hsource, hsc, hb, hbc, rfl⟩ := Statement.each_parts h hc
    cases source with
    | range start bound inclusive =>
      rw [Statement.exec]
      rw [Source.isCore, Bool.and_eq_true] at hsc
      obtain ⟨rfl, ⟨t₁, hstart, hb₁⟩, ⟨t₂, hbound, hb₂⟩⟩ := Source.range_parts hsource
      have hk : Ty.integer.kind ≠ .noType := nofun
      have hl := Env.leave_turn ht hk hb hbc
      rw [hl, Env.leave_define]
      refine (safe_bind (Expr.safe_eval hstart hsc.1) fun v hv => ?_).leads
      refine safe_bind (safe_lift (lands_bound hv hb₁)) fun a _ => ?_
      refine safe_bind (Expr.safe_eval hbound hsc.2) fun w hw => ?_
      refine safe_bind (safe_lift (lands_bound hw hb₂)) fun b _ => ?_
      exact safe_bind (safe_eachInteger (Statement.leads_execAll held passes body hb hbc) hl _ a) fun _ _ => safe_done
    | elements e =>
      rw [Statement.exec]
      rw [Source.isCore] at hsc
      obtain ⟨u, he, helement⟩ := Source.elements_parts hsource
      refine (Expr.safe_eval he hsc).leads_bind fun v hv => ?_
      have helement := helement hv.tySolid
      obtain ⟨items, rfl, hitems⟩ := hv.elements helement
      have hl := Env.leave_turn ht (hv.tySolid.element helement).kind_ne hb hbc
      rw [hl, Env.leave_define]
      refine (safe_bind (P := (· = ⟨t, items⟩)) (safe_pure rfl) fun c hcol => ?_).leads
      subst hcol
      refine safe_bind (safe_eachValue hitems (fun rest => ?_) hl) fun _ _ => safe_done
      exact Statement.leads_execAll _ passes body hb hbc
  | raise line name =>
    rw [Statement.check] at h
    rw [Statement.exec]
    cases h
    exact (safe_fail rfl).leads
  | attempt line body handlers =>
    rw [Statement.exec]
    obtain ⟨⟨env₁, hb, hbc, hl⟩, hh, hhc, rfl⟩ := Statement.attempt_parts h hc ht
    have hbody := safe_nested (Statement.leads_execAll held passes body hb hbc) hl
    refine (safe_bind (safe_failure? hbody) fun f? hf => ?_).leads
    cases f? with
    | none => exact safe_done
    | some f =>
      simp only
      split
      · exact safe_throw (hf f rfl)
      · rename_i handler hfind
        obtain ⟨n, hn⟩ := mem_of_findHandler? hfind
        obtain ⟨env₂, hhandler, hl₂⟩ := Statement.leads_execHandlers held passes handlers hh hhc ht _ hn
        have hv : (Value.literal f.message).HasType Ty.literal := ⟨.literal _, rfl⟩
        exact safe_bind (safe_withVariable hv hhandler hl₂) fun _ _ => safe_done
  | load line name => cases hc

/-- Statements in order. -/
theorem Statement.leads_execAll (held : List Value) (passes : Nat) (sts : List Statement) {env env' : Env}
    (h : Statement.checkAll env sts = .ok env') (hc : Statement.areCore env sts = true) :
    Leads env (Statement.execAll held passes sts) env' := by
  cases sts with
  | nil =>
    rw [Statement.checkAll] at h
    rw [Statement.execAll]
    cases h
    exact (safe_done).leads
  | cons st rest =>
    rw [Statement.checkAll] at h
    rw [Statement.execAll]
    obtain ⟨env₁, hst, h⟩ := Check.ok_of_bind h
    rw [Statement.areCore, hst, Bool.and_eq_true] at hc
    intro s hs
    have hl := Statement.check_outer st hst hc.1 (hs.isTyped.outer 1)
    exact (Statement.leads_exec held passes st hst hc.1).bind hl
      (fun _ => Statement.leads_execAll held passes rest h hc.2) s hs

/-- Conditions with their blocks. -/
theorem Statement.safe_execBranches (held : List Value) (passes : Nat) (branches : List (Expr × List Statement))
    {env env' : Env} {line : Nat} {otherwise : Run Unit} (h : Statement.checkBranches line env branches = .ok env')
    (hc : Statement.branchesCore line env branches = true) (ho : Safe env otherwise fun _ => True) :
    Safe env (Statement.execBranches held passes line otherwise branches) fun _ => True := by
  intro s hs
  have ht := hs.isTyped
  revert s
  cases branches with
  | nil =>
    rw [Statement.execBranches]
    exact ho
  | cons branch rest =>
    obtain ⟨condition, body⟩ := branch
    rw [Statement.execBranches]
    obtain ⟨⟨⟨t, he, hec, hcond⟩, ⟨env₁, hb, hbc, hl⟩⟩, hrest, hrc⟩ := Statement.branches_parts h hc ht
    refine safe_bind (Expr.safe_eval he hec) fun v hv => safe_bind (safe_lift (lands_condition hv hcond)) fun b _ => ?_
    split
    · exact safe_nested (Statement.leads_execAll held passes body hb hbc) hl
    · exact Statement.safe_execBranches held passes rest hrest hrc ho

/-- A block, if there is one. -/
theorem Statement.safe_execOptional (held : List Value) (passes : Nat) (body : Option (List Statement))
    {env env' : Env} (h : Statement.checkOptional env body = .ok env') (hc : Statement.optionalCore env body = true) :
    Safe env (Statement.execOptional held passes body) fun _ => True := by
  intro s hs
  have ht := hs.isTyped
  revert s
  cases body with
  | none =>
    rw [Statement.execOptional]
    exact safe_done
  | some body =>
    rw [Statement.execOptional]
    obtain ⟨⟨env₁, hb, hbc, hl⟩, -⟩ := Statement.optional_parts h hc ht
    exact safe_nested (Statement.leads_execAll held passes body hb hbc) hl

/-- What each handler does. -/
theorem Statement.leads_execHandlers (held : List Value) (passes : Nat) (handlers : List (Handler Statement))
    {env env' : Env} (h : Statement.checkHandlers env handlers = .ok env')
    (hc : Statement.handlersCore env handlers = true) (ht : env.IsTyped) :
    ∀ p ∈ Statement.execHandlers held passes handlers, ∃ env₁, Leads env.handling p.2 env₁ ∧ env₁.leave = env := by
  cases handlers with
  | nil =>
    rw [Statement.execHandlers]
    exact nofun
  | cons handler rest =>
    obtain ⟨⟨env₁, hb, hbc, hl⟩, hrest, hrc⟩ := Statement.handlers_parts h hc ht
    obtain ⟨name, line, body⟩ := handler
    rw [Statement.execHandlers]
    intro p hp
    rcases List.mem_cons.mp hp with rfl | hp
    · exact ⟨env₁, Statement.leads_execAll held passes body hb hbc, hl⟩
    · exact Statement.leads_execHandlers held passes rest hrest hrc ht p hp

end

/-! ## Scripts -/

/-- A whole script. -/
theorem Program.leads_execFrom {held : List Value} {passes : Nat} {p : Program} : ∀ {env env' : Env}
    {last : Option Value}, p.check env = .ok env' → p.isCore env = true →
      Leads env (p.execFrom held passes last) env' := by
  induction p with
  | nil =>
    intro env env' last h _
    rw [Program.check, Statement.checkAll] at h
    rw [Program.execFrom]
    cases h
    exact safe_done.leads
  | cons st rest ih =>
    intro env env' last h hc
    rw [Program.check, Statement.checkAll] at h
    rw [Program.execFrom]
    obtain ⟨env₁, hst, h⟩ := Check.ok_of_bind h
    rw [Program.isCore, Statement.areCore, hst, Bool.and_eq_true] at hc
    intro s hs
    have hl := Statement.check_outer st hst hc.1 (hs.isTyped.outer 1)
    exact (Statement.leads_exec _ passes st hst hc.1).bind hl (fun v => ih h hc.2) s hs

end Crunch
