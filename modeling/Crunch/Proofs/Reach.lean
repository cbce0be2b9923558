import Crunch.Proofs.Passage

/-!
# Crunch.Proofs.Reach

What holds at every point of a run.

* `Piece.Checked`: the check lets a part of a script through.
* `Point.Avoids`: no error of a part is bad, whether it leaves the part or a handler takes it.
* `Invariant.part`, `Invariant.within`: a relation that runs keep holds at every point of a run.
* `Invariant.point`: where it holds, no error is bad.
-/

namespace Crunch

open Run

/-! ## Along a run -/

/-- What the check lets through. -/
def Piece.Checked (I : Prop) (env : Env) : Piece → Prop
  | .expression e => ∃ t, e.typeIn env = .ok t
  | .expressions es => ∃ types, Expr.typesIn env es = .ok types
  | .statement st => (∃ env', st.check env = .ok env') ∧ (I → st.isEarly env.imports = true)
  | .block sts => (∃ env', Statement.checkAll env sts = .ok env') ∧ (I → Statement.areEarly env.imports sts = true)
  | .branches line rest last => ∃ env₁ env₂, Statement.checkBranches line env rest = .ok env₁ ∧
      Statement.checkOptional env₁ last = .ok env₂ ∧
      env.Imports I (Statement.loadsBranches rest) ∧ env.Imports I (Statement.loadsOptional last)
  | .turns name t body _ => (∃ env', Statement.checkAll (env.enter.define name t).enter body = .ok env') ∧
      env.Imports I (Statement.loadsAll body)
  | .handlers _ rest => (∃ env', Statement.checkHandlers env rest = .ok env') ∧
      env.Imports I (Statement.loadsHandlers rest)

/-- No error at a point is bad, whether it leaves the part or a handler takes it. -/
def Point.Avoids (bad : Fault.Cause → Prop) : Point → Prop
  | ⟨_, .expression e, s⟩ => ∀ held, Ends (e.eval held) s (fun _ _ => True) fun h _ => h.Avoids bad
  | ⟨_, .statement st, s⟩ =>
    (∀ held passes, Ends (st.exec held passes) s (fun _ _ => True) fun h _ => h.Avoids bad) ∧
      ∀ line body handlers, st = .attempt line body handlers → ∀ held passes f t,
        failure? (nested (Statement.execAll held passes body)) s = .ok (some f) t → ¬bad f.cause
  | ⟨_, .block sts, s⟩ =>
    ∀ held passes, Ends (Statement.execAll held passes sts) s (fun _ _ => True) fun h _ => h.Avoids bad
  | _ => True

section Parts

variable {I : Prop} {bad : Fault.Cause → Prop} {Fit : Env → State → Prop} {env env' : Env}

/-- The first expressions of an expression are let through with it. -/
theorem Expr.checked_children {e : Expr} {t : Ty} (h : e.typeIn env = .ok t) :
    ∃ types, Expr.typesIn env e.children = .ok types := by
  cases e with
  | constant | var => exact ⟨[], rfl⟩
  | unary line op e | field line e position =>
    rw [Expr.typeIn] at h
    obtain ⟨t, ht, -⟩ := Check.ok_of_bind h
    exact ⟨_, typesIn_single ht⟩
  | binary line op left right | index line left right =>
    rw [Expr.typeIn] at h
    obtain ⟨t, ht, h⟩ := Check.ok_of_bind h
    obtain ⟨u, hu, -⟩ := Check.ok_of_bind h
    exact ⟨_, typesIn_cons ht (typesIn_single hu)⟩
  | call line name es =>
    rw [Expr.typeIn] at h
    obtain ⟨types, htypes, -⟩ := Check.ok_of_bind h
    exact ⟨types, htypes⟩
  | collection line es =>
    rw [Expr.typeIn] at h
    obtain ⟨u, hu, -⟩ := Check.ok_of_bind h
    obtain ⟨types, htypes, -⟩ := Expr.types_of_elements hu
    exact ⟨types, htypes⟩
  | member line e m es =>
    rw [Expr.typeIn] at h
    obtain ⟨t, ht, h⟩ := Check.ok_of_bind h
    obtain ⟨types, htypes, -⟩ := Check.ok_of_bind h
    exact ⟨_, typesIn_cons ht htypes⟩

theorem Statement.checked_children {st : Statement} (h : st.check env = .ok env') :
    ∃ types, Expr.typesIn env st.children = .ok types := by
  cases st with
  | choice | raise | attempt | load => exact ⟨[], rfl⟩
  | expression line e =>
    rw [Statement.check] at h
    obtain ⟨t, he, -⟩ := Check.ok_of_map h
    exact ⟨_, Expr.typesIn_single he⟩
  | declare line name e | assign line name e =>
    rw [Statement.check] at h
    obtain ⟨t, he, -⟩ := Check.ok_of_bind h
    exact ⟨_, Expr.typesIn_single he⟩
  | compound line name op e =>
    obtain ⟨⟨t, he⟩, -⟩ := Statement.compound_ok h
    exact ⟨_, Expr.typesIn_single he⟩
  | loop line condition body =>
    obtain ⟨⟨t, he⟩, -⟩ := Statement.loop_ok h
    exact ⟨_, Expr.typesIn_single he⟩
  | each line name source body =>
    obtain ⟨t, hs, -⟩ := Statement.each_ok h
    cases source with
    | range start bound inclusive =>
      obtain ⟨-, ⟨t₁, hstart, -⟩, ⟨t₂, hbound, -⟩⟩ := Source.range_parts hs
      exact ⟨_, Expr.typesIn_cons hstart (Expr.typesIn_single hbound)⟩
    | elements e =>
      obtain ⟨u, he, -⟩ := Source.elements_parts hs
      exact ⟨_, Expr.typesIn_single he⟩

end Parts

namespace Invariant

variable {I : Prop} {bad : Fault.Cause → Prop} {Fit : Env → State → Prop} {env env' : Env} {α : Type} {P : α → Prop}

theorem of_ok (_ : Invariant I bad Fit) {x : Run α} (hx : Upholds Fit bad env x P) {s t : State} {a : α} (hs : Fit env s)
    (h : x s = .ok a t) : Fit env t ∧ P a := (ends_of_ok h).mp (hx s hs)

/-- A block of a statement that is no import has been let through with its imports. -/
theorem imports_of_early {st : Statement} (he : I → st.isEarly env.imports = true)
    (hne : ∀ line name, st ≠ .load line name) : env.Imports I st.loads := fun hi => by
  rcases Statement.imports_of_isEarly (he hi) with ⟨line, name, h⟩ | h
  · exact absurd h (hne line name)
  · exact h

theorem early_of_imports {sts : List Statement} (h : env.Imports I (Statement.loadsAll sts)) :
    I → Statement.areEarly env.imports sts = true := fun hi => Statement.areEarly_of_imports (h hi)

/-- What is carried out within a part fits and is let through with it. -/
theorem part (hI : Invariant I bad Fit) {p q : Point} (h : p.Part q) (hs : Fit p.env p.state)
    (hp : p.piece.Checked I p.env) : Fit q.env q.state ∧ q.piece.Checked I q.env := by
  cases h with
  | operands =>
    obtain ⟨t, h⟩ := hp
    exact ⟨hs, Expr.checked_children h⟩
  | first =>
    obtain ⟨types, h⟩ := hp
    obtain ⟨t, ts, ht, -⟩ := Expr.cons_ok h
    exact ⟨hs, t, ht⟩
  | further hx =>
    obtain ⟨types, h⟩ := hp
    obtain ⟨t, ts, ht, hts⟩ := Expr.cons_ok h
    exact ⟨(hI.of_ok (hI.eval _ _ ht) hs hx).1, ts, hts⟩
  | ofStatement =>
    obtain ⟨⟨env', h⟩, -⟩ := hp
    exact ⟨hs, Statement.checked_children h⟩
  | head =>
    obtain ⟨⟨env', h⟩, he⟩ := hp
    obtain ⟨env₁, hst, -⟩ := Statement.cons_ok h
    exact ⟨hs, ⟨env₁, hst⟩, (areEarly_tail hst he).1⟩
  | next hx hst =>
    obtain ⟨⟨env', h⟩, he⟩ := hp
    rw [Statement.checkAll, hst] at h
    obtain ⟨hst', hrest⟩ := areEarly_tail hst he
    exact ⟨(ends_of_ok hx).mp (hI.exec_early hst hst' _ hs), ⟨env', h⟩, hrest⟩
  | choice =>
    obtain ⟨⟨env', h⟩, he⟩ := hp
    have hi := imports_of_early he nofun
    rw [Statement.loads] at hi
    obtain ⟨env₁, hb, ho⟩ := Statement.choice_ok h
    exact ⟨hs, env₁, env', hb, ho, hi.left, hi.right⟩
  | condition =>
    obtain ⟨env₁, env₂, h, -⟩ := hp
    obtain ⟨⟨t, he⟩, -⟩ := Statement.branch_ok h
    exact ⟨hs, t, he⟩
  | taken hx =>
    obtain ⟨env₁, env₂, h, -, hi, -⟩ := hp
    rw [Statement.loadsBranches] at hi
    obtain ⟨⟨t, he⟩, env₃, hb, -⟩ := Statement.branch_ok h
    exact ⟨hI.enter (hI.of_ok (hI.eval _ _ he) hs hx).1, ⟨env₃, hb⟩, early_of_imports hi.left⟩
  | passed hx hb =>
    obtain ⟨env₁, env₂, h, ho, hi, hio⟩ := hp
    rw [Statement.checkBranches] at h
    rw [Statement.loadsBranches] at hi
    obtain ⟨t, he, h⟩ := Check.ok_of_bind h
    obtain ⟨_, -, h⟩ := Check.ok_of_bind h
    rw [hb] at h
    -- Further branches are checked with what this body has left, although it is not carried out.
    have hl : Env.Like I _ _ := Statement.checkAll_like _ hb hi.left
    refine ⟨hI.like hl.symm (hI.of_ok (hI.eval _ _ he) hs hx).1, env₁, env₂, h, ho, ?_⟩
    exact ⟨hi.right.congr hl.imports, hio.congr hl.imports⟩
  | otherwise =>
    obtain ⟨env₁, env₂, h, ho, -, hi⟩ := hp
    rw [Statement.checkBranches] at h
    cases h
    rw [Statement.checkOptional] at ho
    obtain ⟨env₃, hb, -⟩ := Check.ok_of_bind ho
    exact ⟨hI.enter hs, ⟨env₃, hb⟩, early_of_imports hi⟩
  | whileBody hx =>
    obtain ⟨⟨env', h⟩, he⟩ := hp
    have hi := imports_of_early he nofun
    rw [Statement.loads] at hi
    obtain ⟨⟨t, hcond⟩, env₁, hb, -⟩ := Statement.loop_ok h
    exact ⟨hI.enter (hI.of_ok (hI.eval _ _ hcond) hs hx).1, ⟨env₁, hb⟩, early_of_imports hi⟩
  | whileAgain hx hn =>
    have hagain := hp
    obtain ⟨⟨env', h⟩, he⟩ := hp
    have hi := imports_of_early he nofun
    rw [Statement.loads] at hi
    obtain ⟨⟨t, hcond⟩, env₁, hb, -⟩ := Statement.loop_ok h
    have hs₁ := (hI.of_ok (hI.eval _ _ hcond) hs hx).1
    have hl : Env.Like I _ _ := Statement.checkAll_like _ hb hi
    exact ⟨(hI.of_ok (hI.nested (hI.execAll _ _ _ hb hi) hl) hs₁ hn).1, hagain⟩
  | overRange ha hb =>
    obtain ⟨⟨env', h⟩, he⟩ := hp
    have hi := imports_of_early he nofun
    rw [Statement.loads] at hi
    obtain ⟨t, hsource, env₁, hbody, -⟩ := Statement.each_ok h
    obtain ⟨rfl, ⟨t₁, hstart, -⟩, ⟨t₂, hbound, -⟩⟩ := Source.range_parts hsource
    have hs₁ := (hI.of_ok (hI.eval _ _ hstart) hs ha).1
    exact ⟨(hI.of_ok (hI.eval _ _ hbound) hs₁ hb).1, ⟨env₁, hbody⟩, hi⟩
  | overElements hx hsource =>
    obtain ⟨⟨env', h⟩, he⟩ := hp
    have hi := imports_of_early he nofun
    rw [Statement.loads] at hi
    obtain ⟨t, hsource', env₁, hbody, -⟩ := Statement.each_ok h
    cases hsource.symm.trans hsource'
    obtain ⟨u, hu, -⟩ := Source.elements_parts hsource
    exact ⟨(hI.of_ok (hI.eval _ _ hu) hs hx).1, ⟨env₁, hbody⟩, hi⟩
  | turn =>
    obtain ⟨⟨env₁, hb⟩, hi⟩ := hp
    exact ⟨hI.enter (hI.declare (hI.enter hs)), ⟨env₁, hb⟩, early_of_imports hi⟩
  | nextTurn hx =>
    have hagain := hp
    obtain ⟨⟨env₁, hb⟩, hi⟩ := hp
    have hl : Env.Like I _ _ := Statement.checkAll_like _ hb hi
    exact ⟨(hI.of_ok (hI.pass (hI.execAll _ _ _ hb hi) hl) hs hx).1, hagain⟩
  | attempt =>
    obtain ⟨⟨env', h⟩, he⟩ := hp
    have hi := imports_of_early he nofun
    rw [Statement.loads] at hi
    obtain ⟨env₁, hb, -⟩ := Statement.attempt_ok h
    exact ⟨hI.enter hs, ⟨env₁, hb⟩, early_of_imports hi.left⟩
  | caught hx hb =>
    obtain ⟨⟨env', h⟩, he⟩ := hp
    have hi := imports_of_early he nofun
    rw [Statement.check, hb] at h
    rw [Statement.loads] at hi
    have hl : Env.Like I _ _ := Statement.checkAll_like _ hb hi.left
    have hs₁ := (hI.of_ok (hI.failure? (hI.nested (hI.execAll _ _ _ hb hi.left) hl)) hs hx).1
    exact ⟨hI.like hl.symm hs₁, ⟨env', h⟩, hi.right.congr hl.imports⟩
  | handler =>
    obtain ⟨⟨env', h⟩, hi⟩ := hp
    rw [Statement.loadsHandlers] at hi
    obtain ⟨env₁, hb, -⟩ := Statement.handler_ok h
    exact ⟨hI.declare (hI.enter hs), ⟨env₁, hb⟩, early_of_imports hi.left⟩
  | nextHandler hb =>
    obtain ⟨⟨env', h⟩, hi⟩ := hp
    rw [Statement.checkHandlers] at h
    rw [Statement.loadsHandlers] at hi
    have hh := h
    obtain ⟨env₁, hb', h⟩ := Check.ok_of_bind h
    cases hb.symm.trans hb'
    have hl : Env.Like I _ _ := .of_block (Statement.checkAll_like _ hb hi.left)
    exact ⟨hI.like hl.symm hs, ⟨env', h⟩, hi.right.congr hl.imports⟩

/-- No error of a part that fits and is let through is bad. -/
theorem point (hI : Invariant I bad Fit) {p : Point} (hs : Fit p.env p.state) (hp : p.piece.Checked I p.env) :
    p.Avoids bad := by
  obtain ⟨env, piece, s⟩ := p
  cases piece with
  | expression e =>
    obtain ⟨t, h⟩ := hp
    exact fun held => (hI.eval held e h s hs).mono (fun _ _ _ => trivial) fun _ _ he => he.2
  | statement st =>
    obtain ⟨⟨env', h⟩, he⟩ := hp
    refine ⟨fun held passes => ?_, ?_⟩
    · exact (hI.exec_early h he s hs).mono (fun _ _ _ => trivial) fun _ _ he => he.2
    · rintro line body handlers rfl held passes f t hx
      have hi := imports_of_early he nofun
      rw [Statement.loads] at hi
      obtain ⟨env₁, hb, -⟩ := Statement.attempt_ok h
      have hbody := hI.nested (hI.execAll held passes body hb hi.left) (Statement.checkAll_like _ hb hi.left)
      exact (hI.of_ok (hI.failure? hbody) hs hx).2 f rfl
  | block sts =>
    obtain ⟨⟨env', h⟩, he⟩ := hp
    exact fun held passes => (hI.execAll_early h he hs).mono (fun _ _ _ => trivial) fun _ _ he => he
  | expressions | branches | turns | handlers => trivial

theorem within (hI : Invariant I bad Fit) {p q : Point} (h : p.Within q) (hs : Fit p.env p.state)
    (hp : p.piece.Checked I p.env) : Fit q.env q.state ∧ q.piece.Checked I q.env := by
  induction h with
  | refl => exact ⟨hs, hp⟩
  | step _ hpart ih => exact hI.part hpart ih.1 ih.2

end Invariant

end Crunch
