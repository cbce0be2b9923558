import Crunch.Proofs.Invariant

/-!
# Crunch.Proofs.Passage

What statements that the check lets through keep.

* `Passes`: a block leads from states that fit before it to states that fit after it, and does not fail
  for a bad cause.
* `Invariant.exec`: so does a statement that imports nothing new.
* `Statement.areEarly`: the blocks of statements only import what has been imported before them.
* `Invariant.execFrom`: a script of such statements does not fail for a bad cause.
-/

namespace Crunch

open Run

/-- A block leads from states that fit before it to states that fit after it, or it fails for a cause that
is not bad and leaves the scopes around it as they were. -/
def Passes {α : Type} (I : Prop) (Fit : Env → State → Prop) (bad : Fault.Cause → Prop) (env : Env) (x : Run α) (env' : Env) :
    Prop :=
  ∀ s, Fit env s → Ends x s (fun _ t => Fit env' t)
    fun h t => (∃ inner, Env.Like I inner.leave env.leave ∧ Fit inner t) ∧ h.Avoids bad

namespace Invariant

variable {I : Prop} {bad : Fault.Cause → Prop} {Fit : Env → State → Prop} {env env' env'' : Env} {line : Nat}
  {α β : Type} {P : α → Prop}

/-! ## Blocks -/

theorem passes (hI : Invariant I bad Fit) {x : Run α} (hx : Upholds Fit bad env x fun _ => True) (hl : Env.Like I env env') :
    Passes I Fit bad env x env' := fun s hs =>
  (hx s hs).mono (fun _ _ ha => hI.like hl ha.1) fun _ _ he => ⟨⟨env, .refl _, he.1⟩, he.2⟩

theorem before (_ : Invariant I bad Fit) {x : Run α} {f : α → Run β} (hx : Upholds Fit bad env x P)
    (hf : ∀ a, P a → Passes I Fit bad env (f a) env') : Passes I Fit bad env (x >>= f) env' := by
  intro s hs
  refine ends_bind.mpr ((hx s hs).mono (fun a t ha => hf a ha.2 t ha.1) fun _ _ he => ?_)
  exact ⟨⟨env, .refl _, he.1⟩, he.2⟩

/-- Blocks one after the other in one scope. -/
theorem followed (_ : Invariant I bad Fit) {x : Run α} {f : α → Run β} (hx : Passes I Fit bad env x env')
    (hl : Env.Like I env'.leave env.leave) (hf : ∀ a, Passes I Fit bad env' (f a) env'') :
    Passes I Fit bad env (x >>= f) env'' := by
  intro s hs
  refine ends_bind.mpr ((hx s hs).mono (fun a t ha => ?_) fun _ _ he => he)
  refine (hf a t ha).mono (fun _ _ hb => hb) fun _ _ he => ⟨?_, he.2⟩
  -- An error of the second block leaves the scopes around the first, which has kept them.
  obtain ⟨inner, hi, hf⟩ := he.1
  exact ⟨inner, hi.trans hl, hf⟩

theorem define (hI : Invariant I bad Fit) {name : String} {v : Value} {t : Ty} :
    Passes I Fit bad env (Run.define name v) (env.define name t) := fun _ hs => ends_define.mpr (hI.declare hs)

/-- A block in a scope of its own. -/
theorem nested (hI : Invariant I bad Fit) {x : Run α} (hx : Passes I Fit bad env.enter x env')
    (hl : Env.Like I env'.leave env) : Upholds Fit bad env (Run.nested x) fun _ => True := by
  intro s hs
  refine ends_nested.mpr ((hx _ (hI.enter hs)).mono (fun _ t ht => ?_) fun h t ht => ?_)
  · exact ⟨hI.like hl (hI.leave ht), trivial⟩
  · obtain ⟨⟨inner, hi, hf⟩, hh⟩ := ht
    exact ⟨hI.like hi (hI.leave hf), hh⟩

/-- A body in a scope with a variable. -/
theorem withVariable (hI : Invariant I bad Fit) {name : String} {v : Value} {t : Ty} {body : Run Unit}
    (hb : Passes I Fit bad (env.enter.define name t) body env') (hl : Env.Like I env'.leave env) :
    Upholds Fit bad env (Run.nested (Run.define name v >>= fun _ => body)) fun _ => True := by
  refine hI.nested (hI.followed hI.define ?_ fun _ => hb) hl
  rw [Env.leave_define]
  exact .refl _

/-- A body in a scope within the scope of a variable. -/
theorem pass (hI : Invariant I bad Fit) {name : String} {v : Value} {t : Ty} {body : Run Unit}
    (hb : Passes I Fit bad (env.enter.define name t).enter body env') (hl : Env.Like I env'.leave (env.enter.define name t)) :
    Upholds Fit bad env (Run.pass line name v body) fun _ => True := by
  refine hI.bind hI.checkStop fun _ _ => ?_
  refine hI.withVariable (hI.passes (hI.nested hb hl) (.refl _)) ?_
  rw [Env.leave_define]
  exact .refl _

theorem eachValue (hI : Invariant I bad Fit) {name : String} {t : Ty} {body : List Value → Run Unit}
    (hb : ∀ rest, Passes I Fit bad (env.enter.define name t).enter (body rest) env')
    (hl : Env.Like I env'.leave (env.enter.define name t)) (vs : List Value) :
    Upholds Fit bad env (Run.eachValue line name body vs) fun _ => True := by
  induction vs with
  | nil => exact hI.done
  | cons v rest ih => exact hI.bind (hI.pass (hb rest) hl) fun _ _ => ih

theorem eachInteger (hI : Invariant I bad Fit) {name : String} {t : Ty} {body : Run Unit}
    (hb : Passes I Fit bad (env.enter.define name t).enter body env')
    (hl : Env.Like I env'.leave (env.enter.define name t)) (n : Nat) (i : Int64) :
    Upholds Fit bad env (Run.eachInteger line name body n i) fun _ => True := by
  rw [eachInteger_eq_eachValue]
  exact hI.eachValue (fun _ => hb) hl _

theorem repeatWhile (hI : Invariant I bad Fit) {condition : Run Value} {body : Run Unit}
    (hc : Upholds Fit bad env condition fun _ => True) (hb : Upholds Fit bad env body fun _ => True) (passes : Nat) :
    Upholds Fit bad env (Run.repeatWhile line condition body passes) fun _ => True := by
  induction passes with
  | zero => exact hI.throw trivial
  | succ passes ih =>
    refine hI.bind hI.checkStop fun _ _ => hI.bind hc fun v _ => hI.bind (hI.lift Value.plain_condition) fun b _ => ?_
    split
    · exact hI.bind hb fun _ _ => ih
    · exact hI.done

theorem failure? (_ : Invariant I bad Fit) {x : Run Unit} (hx : Upholds Fit bad env x fun _ => True) :
    Upholds Fit bad env (Run.failure? x) fun f? => ∀ f, f? = some f → ¬bad f.cause := by
  intro s hs
  refine ends_failure?.mpr ((hx s hs).mono (fun _ _ ha => ⟨ha.1, nofun⟩) fun h t ht => ?_)
  cases h with
  | outOfFuel => exact ht
  | error f =>
    simp only
    split
    · refine ⟨ht.1, fun f' hf => ?_⟩
      cases hf
      exact ht.2
    · exact ht

/-! ## Statements -/

theorem load_passes (hI : Invariant I bad Fit) {held : List Value} {passes : Nat} {name : String}
    (h : (Statement.load line name).check env = .ok env') :
    Passes I Fit bad env ((Statement.load line name).exec held passes) env' := by
  rw [Statement.check] at h
  rw [Statement.exec]
  intro s hs
  exact ends_bind.mpr ((hI.load hs h).mono (fun _ t ht => ht) fun _ t ht => ⟨⟨env, .refl _, ht.1⟩, ht.2⟩)

mutual

/-- A statement leads from what the check knows before it to what it knows afterwards. -/
theorem exec (hI : Invariant I bad Fit) (held : List Value) (passes : Nat) (st : Statement) {env env' : Env}
    (h : st.check env = .ok env') (hi : env.Imports I st.loads) :
    Passes I Fit bad env (st.exec held passes) env' := by
  cases st with
  | expression line e =>
    rw [Statement.check] at h
    rw [Statement.exec]
    obtain ⟨t, he, rfl⟩ := Check.ok_of_map h
    exact hI.passes (hI.map (hI.eval held e he) fun _ _ => trivial) (.refl _)
  | declare line name e =>
    rw [Statement.check] at h
    rw [Statement.exec]
    obtain ⟨t, he, h⟩ := Check.ok_of_bind h
    cases h
    refine hI.before (hI.eval held e he) fun v _ => hI.followed hI.define ?_ fun _ => hI.passes hI.done (.refl _)
    rw [Env.leave_define]
    exact .refl _
  | assign line name e =>
    rw [Statement.check] at h
    rw [Statement.exec]
    obtain ⟨t, he, h⟩ := Check.ok_of_bind h
    refine hI.passes (hI.bind (hI.eval held e he) fun v _ => ?_) (Env.Like.assign h).symm
    exact hI.bind (hI.store (knows_of_assign h)) fun _ _ => hI.done
  | compound line name op e =>
    rw [Statement.exec]
    obtain ⟨⟨t, he⟩, r, h⟩ := Statement.compound_ok h
    have hk : env.Knows bad name := knows_of_assign h
    refine hI.passes (hI.bind (hI.operand held e he) fun r hr => ?_) (Env.Like.assign h).symm
    exact hI.bind (hI.combine hk hr) fun v _ => hI.bind (hI.store hk) fun _ _ => hI.done
  | choice line branches otherwise =>
    rw [Statement.loads] at hi
    rw [Statement.exec]
    obtain ⟨env₁, hb, h⟩ := Statement.choice_ok h
    have h₁ := Statement.checkBranches_like branches hb hi.left
    have h₂ := Statement.checkOptional_like otherwise h (hi.right.congr h₁.imports)
    -- The last block is checked with what the branches have left, which is like what is known before them.
    refine hI.passes (hI.bind (hI.execBranches held passes branches hb hi.left ?_) fun _ _ => hI.done) (h₂.trans h₁).symm
    have ho := hI.execOptional held passes otherwise h (hi.right.congr h₁.imports)
    exact hI.along h₁ ho
  | loop line condition body =>
    rw [Statement.loads] at hi
    rw [Statement.exec]
    obtain ⟨⟨t, he⟩, env₁, hb, rfl⟩ := Statement.loop_ok h
    have hl : Env.Like I env₁.leave env := Statement.checkAll_like body hb hi
    refine hI.passes (hI.bind (hI.repeatWhile (hI.eval held condition he) ?_ passes) fun _ _ => hI.done) hl.symm
    exact hI.nested (hI.execAll held passes body hb hi) hl
  | each line name source body =>
    rw [Statement.loads] at hi
    obtain ⟨t, hs, env₁, hb, rfl⟩ := Statement.each_ok h
    have hl : Env.Like I env₁.leave (env.enter.define name t) := Statement.checkAll_like body hb hi
    cases source with
    | range start bound inclusive =>
      rw [Statement.exec]
      obtain ⟨-, ⟨t₁, hstart, -⟩, ⟨t₂, hbound, -⟩⟩ := Source.range_parts hs
      refine hI.passes ?_ (Env.Like.of_block hl.leave).symm
      refine hI.bind (hI.eval held start hstart) fun a _ => hI.bind (hI.lift Value.plain_integer?) fun a _ => ?_
      refine hI.bind (hI.eval held bound hbound) fun b _ => hI.bind (hI.lift Value.plain_integer?) fun b _ => ?_
      exact hI.bind (hI.eachInteger (hI.execAll held passes body hb hi) hl _ a) fun _ _ => hI.done
    | elements e =>
      rw [Statement.exec]
      obtain ⟨u, he, -⟩ := Source.elements_parts hs
      refine hI.passes ?_ (Env.Like.of_block hl.leave).symm
      refine hI.bind (hI.eval held e he) fun v _ => hI.bind (hI.lift Collection.plain_ofValue?) fun c _ => ?_
      exact hI.bind (hI.eachValue (fun rest => hI.execAll _ passes body hb hi) hl _) fun _ _ => hI.done
  | raise line name =>
    rw [Statement.check] at h
    rw [Statement.exec]
    cases h
    exact hI.passes (hI.fail rfl) (.refl _)
  | attempt line body handlers =>
    rw [Statement.loads] at hi
    rw [Statement.exec]
    obtain ⟨env₁, hb, h⟩ := Statement.attempt_ok h
    have h₁ : Env.Like I env₁.leave env := Statement.checkAll_like body hb hi.left
    have h₂ := Statement.checkHandlers_like handlers h (hi.right.congr h₁.imports)
    have hbody := hI.nested (hI.execAll held passes body hb hi.left) h₁
    -- Wherever the body has failed, its scopes are closed, so handlers start from the scopes around it.
    refine hI.passes (hI.bind (hI.failure? hbody) fun f? hf => ?_) (h₂.trans h₁).symm
    cases f? with
    | none => exact hI.done
    | some f =>
      simp only
      split
      · exact hI.throw (hf f rfl)
      · rename_i handler hfind
        obtain ⟨n, hn⟩ := mem_of_findHandler? hfind
        have hhandler := hI.execHandlers held passes handlers h (hi.right.congr h₁.imports) _ hn f.message
        exact hI.bind (hI.along h₁ hhandler) fun _ _ => hI.done
  | load line name => exact hI.load_passes h

theorem execAll (hI : Invariant I bad Fit) (held : List Value) (passes : Nat) (sts : List Statement) {env env' : Env}
    (h : Statement.checkAll env sts = .ok env') (hi : env.Imports I (Statement.loadsAll sts)) :
    Passes I Fit bad env (Statement.execAll held passes sts) env' := by
  cases sts with
  | nil =>
    rw [Statement.checkAll] at h
    rw [Statement.execAll]
    cases h
    exact hI.passes hI.done (.refl _)
  | cons st rest =>
    rw [Statement.loadsAll] at hi
    rw [Statement.execAll]
    obtain ⟨env₁, hst, h⟩ := Statement.cons_ok h
    have hl := Statement.check_like st hst hi.left
    exact hI.followed (hI.exec held passes st hst hi.left) hl fun _ =>
      hI.execAll held passes rest h (hi.right.congr hl.imports)

theorem execBranches (hI : Invariant I bad Fit) (held : List Value) (passes : Nat)
    (branches : List (Expr × List Statement)) {env env' : Env} {line : Nat} {otherwise : Run Unit}
    (h : Statement.checkBranches line env branches = .ok env') (hi : env.Imports I (Statement.loadsBranches branches))
    (ho : Upholds Fit bad env otherwise fun _ => True) :
    Upholds Fit bad env (Statement.execBranches held passes line otherwise branches) fun _ => True := by
  cases branches with
  | nil =>
    rw [Statement.execBranches]
    exact ho
  | cons branch rest =>
    obtain ⟨condition, body⟩ := branch
    rw [Statement.loadsBranches] at hi
    rw [Statement.execBranches]
    obtain ⟨⟨t, he⟩, env₁, hb, h⟩ := Statement.branch_ok h
    have hl : Env.Like I env₁.leave env := Statement.checkAll_like body hb hi.left
    refine hI.bind (hI.eval held condition he) fun v _ => hI.bind (hI.lift Value.plain_condition) fun b _ => ?_
    split
    · exact hI.nested (hI.execAll held passes body hb hi.left) hl
    · have hrest := hI.execBranches held passes rest h (hi.right.congr hl.imports) (hI.along hl.symm ho)
      exact hI.along hl hrest

theorem execOptional (hI : Invariant I bad Fit) (held : List Value) (passes : Nat) (body : Option (List Statement))
    {env env' : Env} (h : Statement.checkOptional env body = .ok env')
    (hi : env.Imports I (Statement.loadsOptional body)) :
    Upholds Fit bad env (Statement.execOptional held passes body) fun _ => True := by
  cases body with
  | none =>
    rw [Statement.execOptional]
    exact hI.done
  | some body =>
    rw [Statement.loadsOptional] at hi
    rw [Statement.execOptional]
    obtain ⟨env₁, hb, -⟩ := Statement.last_ok h
    exact hI.nested (hI.execAll held passes body hb hi) (Statement.checkAll_like body hb hi)

/-- What each handler does with a message. -/
theorem execHandlers (hI : Invariant I bad Fit) (held : List Value) (passes : Nat)
    (handlers : List (Handler Statement)) {env env' : Env} (h : Statement.checkHandlers env handlers = .ok env')
    (hi : env.Imports I (Statement.loadsHandlers handlers)) :
    ∀ p ∈ Statement.execHandlers held passes handlers, ∀ message, Upholds Fit bad env
      (Run.nested (Run.define errorVariable (.literal message) >>= fun _ => p.2)) fun _ => True := by
  cases handlers with
  | nil =>
    rw [Statement.execHandlers]
    exact nofun
  | cons handler rest =>
    rw [Statement.loadsHandlers] at hi
    rw [Statement.execHandlers]
    obtain ⟨env₁, hb, h⟩ := Statement.handler_ok h
    have hl : Env.Like I env₁.leave env := .of_block (Statement.checkAll_like handler.body hb hi.left)
    intro p hp message
    rcases List.mem_cons.mp hp with rfl | hp
    · exact hI.withVariable (hI.execAll held passes handler.body hb hi.left) hl
    · have hrest := hI.execHandlers held passes rest h (hi.right.congr hl.imports) p hp message
      exact hI.along hl hrest

end

end Invariant

/-! ## Imports of a script -/

namespace Statement

/-- What a statement imports outside of blocks. -/
def topLoads : Statement → List String
  | .load _ name => [name]
  | _ => []

def isEarly (known : List String) : Statement → Bool
  | .load _ _ => true
  | st => st.loads.all known.contains

/-- Whether the blocks of statements only import what is known by then. -/
def areEarly (known : List String) : List Statement → Bool
  | [] => true
  | st :: rest => st.isEarly known && Statement.areEarly (st.topLoads ++ known) rest

variable {known known' : List String}

theorem imports_of_isEarly {st : Statement} (h : st.isEarly known = true) :
    (∃ line name, st = .load line name) ∨ ∀ n ∈ st.loads, n ∈ known := by
  cases st with
  | load line name => exact .inl ⟨line, name, rfl⟩
  | _ => exact .inr fun n hn => List.contains_iff_mem.mp (List.all_eq_true.mp h n hn)

theorem isEarly_of_imports {st : Statement} (h : ∀ n ∈ st.loads, n ∈ known) : st.isEarly known = true := by
  cases st with
  | load line name => rfl
  | _ => exact List.all_eq_true.mpr fun n hn => List.contains_iff_mem.mpr (h n hn)

theorem isEarly_mono (hk : ∀ n ∈ known, n ∈ known') {st : Statement} (h : st.isEarly known = true) :
    st.isEarly known' = true := by
  rcases imports_of_isEarly h with ⟨line, name, rfl⟩ | h
  · rfl
  · exact isEarly_of_imports fun n hn => hk n (h n hn)

theorem areEarly_mono (hk : ∀ n ∈ known, n ∈ known') {sts : List Statement} (h : areEarly known sts = true) :
    areEarly known' sts = true := by
  -- The known names grow along the statements, so they vary in the induction.
  induction sts generalizing known known' with
  | nil => rfl
  | cons st rest ih =>
    rw [areEarly, Bool.and_eq_true] at h ⊢
    refine ⟨isEarly_mono hk h.1, ih (fun n hn => ?_) h.2⟩
    exact (List.mem_append.mp hn).elim (List.mem_append_left _) fun hn => List.mem_append_right _ (hk n hn)

theorem areEarly_of_imports {sts : List Statement} (h : ∀ n ∈ loadsAll sts, n ∈ known) : areEarly known sts = true := by
  induction sts generalizing known with
  | nil => rfl
  | cons st rest ih =>
    rw [loadsAll] at h
    rw [areEarly, Bool.and_eq_true]
    refine ⟨isEarly_of_imports fun n hn => h n (List.mem_append_left _ hn), ih fun n hn => ?_⟩
    exact List.mem_append_right _ (h n (List.mem_append_right _ hn))

/-- The check knows of what a statement imports outside of blocks. -/
theorem imported_of_check {I : Prop} {st : Statement} {env env' : Env} (h : st.check env = .ok env')
    (he : I → st.isEarly env.imports = true) (hi : I) : ∀ n ∈ st.topLoads ++ env.imports, n ∈ env'.imports := by
  rcases imports_of_isEarly (he hi) with ⟨line, name, rfl⟩ | hl
  · rw [check] at h
    obtain ⟨-, rfl⟩ := Env.importType_ok h
    intro n hn
    simp only
    split
    · rename_i hc
      rcases List.mem_cons.mp hn with rfl | hn
      · exact List.contains_iff_mem.mp hc
      · exact hn
    · exact hn
  · have hlike := check_like st h (I := I) fun _ => hl
    rw [show env'.imports = env.imports from hlike.imports hi]
    intro n hn
    cases st with
    | load line name => exact (List.mem_cons.mp hn).elim (fun hn => hl n (hn ▸ List.mem_singleton.mpr rfl)) id
    | _ => exact hn

end Statement

/-- Whether the blocks of a script only import what has been imported before them. -/
def Program.importsEarly (env : Env) (p : Program) : Bool := Statement.areEarly env.imports p

namespace Invariant

variable {I : Prop} {bad : Fault.Cause → Prop} {Fit : Env → State → Prop} {env env' : Env}

theorem exec_early (hI : Invariant I bad Fit) {held : List Value} {passes : Nat} {st : Statement}
    (h : st.check env = .ok env') (he : I → st.isEarly env.imports = true) :
    Passes I Fit bad env (st.exec held passes) env' := by
  cases st with
  | load line name => exact hI.load_passes h
  | _ => exact hI.exec held passes _ h fun hi => (Statement.imports_of_isEarly (he hi)).resolve_left nofun

theorem areEarly_tail {st : Statement} {rest : List Statement} (h : st.check env = .ok env')
    (he : I → Statement.areEarly env.imports (st :: rest) = true) :
    (I → st.isEarly env.imports = true) ∧ (I → Statement.areEarly env'.imports rest = true) := by
  have hst : I → st.isEarly env.imports = true := fun hi => by
    have := he hi
    rw [Statement.areEarly, Bool.and_eq_true] at this
    exact this.1
  refine ⟨hst, fun hi => ?_⟩
  have := he hi
  rw [Statement.areEarly, Bool.and_eq_true] at this
  exact Statement.areEarly_mono (Statement.imported_of_check h hst hi) this.2

theorem execAll_early (hI : Invariant I bad Fit) {held : List Value} {passes : Nat} {sts : List Statement} :
    ∀ {env env' : Env} {s : State}, Statement.checkAll env sts = .ok env' →
      (I → Statement.areEarly env.imports sts = true) → Fit env s →
      Ends (Statement.execAll held passes sts) s (fun _ t => Fit env' t) fun h _ => h.Avoids bad := by
  induction sts with
  | nil =>
    intro env env' s h he hs
    rw [Statement.checkAll] at h
    rw [Statement.execAll]
    cases h
    exact hs
  | cons st rest ih =>
    intro env env' s h he hs
    rw [Statement.execAll]
    obtain ⟨env₁, hst, h⟩ := Statement.cons_ok h
    obtain ⟨hst', hrest⟩ := areEarly_tail hst he
    exact ends_bind.mpr ((hI.exec_early hst hst' s hs).mono (fun _ t ht => ih h hrest ht) fun _ _ ht => ht.2)

theorem execFrom (hI : Invariant I bad Fit) {held : List Value} {passes : Nat} {p : Program} :
    ∀ {env env' : Env} {s : State} {last : Option Value}, p.check env = .ok env' →
      (I → p.importsEarly env = true) → Fit env s →
      Ends (p.execFrom held passes last) s (fun _ t => Fit env' t) fun h _ => h.Avoids bad := by
  induction p with
  | nil =>
    intro env env' s last h he hs
    rw [Program.check, Statement.checkAll] at h
    rw [Program.execFrom]
    cases h
    exact hs
  | cons st rest ih =>
    intro env env' s last h he hs
    rw [Program.check] at h
    rw [Program.execFrom]
    obtain ⟨env₁, hst, h⟩ := Statement.cons_ok h
    obtain ⟨hst', hrest⟩ := areEarly_tail hst he
    exact ends_bind.mpr ((hI.exec_early hst hst' s hs).mono (fun _ t ht => ih h hrest ht) fun _ _ ht => ht.2)

end Invariant

end Crunch
