import Crunch.Pattern.Bundled
import Crunch.Proofs.Execution

/-!
# Crunch.Proofs.Soundness

Scripts without nulls that the check lets through run without errors of types.

* `Point`: a part of a script, with what the check knows before it and the state that it is carried
  out on.
* `Point.Part`: the parts that a part is made up of when it is carried out: operands in order, the
  statements of a block, the turns of loops, the handlers of an error.
* `Point.Sound`: an expression has the type that the check tells, and no error is one of types. An
  error of a part counts, whether a handler around it takes it or not.
* `Program.type_sound`: a whole script, at every point of its run.
-/

namespace Crunch

open Run

/-! ## Parts of a run -/

/-- The expressions that an expression evaluates first, in order. -/
def Expr.children : Expr → List Expr
  | .constant _ _ | .var _ _ => []
  | .unary _ _ e | .field _ e _ => [e]
  | .binary _ _ left right => [left, right]
  | .call _ _ es | .collection _ es => es
  | .member _ e _ es => e :: es
  | .index _ target position => [target, position]

/-- The expressions that a statement evaluates first, in order. -/
def Statement.children : Statement → List Expr
  | .expression _ e | .declare _ _ e | .assign _ _ e | .compound _ _ _ e | .loop _ e _ => [e]
  | .each _ _ (.range start bound _) _ => [start, bound]
  | .each _ _ (.elements e) _ => [e]
  | .choice _ _ _ | .raise _ _ | .attempt _ _ _ | .load _ _ => []

/-- The integers that a `for` runs over. -/
def integersFrom : Nat → Int64 → List Value
  | 0, _ => []
  | n + 1, i => .integer i :: integersFrom n (i + 1)

/-- A part of a script that is carried out. -/
inductive Piece where
  | expression (e : Expr)
  | expressions (es : List Expr)
  | statement (st : Statement)
  | block (sts : List Statement)
  | branches (line : Nat) (branches : List (Expr × List Statement)) (otherwise : Option (List Statement))
  /-- The turns of a `for` whose variable has a type and runs over values. -/
  | turns (name : String) (t : Ty) (body : List Statement) (vs : List Value)
  /-- The handlers of an error with a message. -/
  | handlers (message : String) (handlers : List (Handler Statement))

/-- A part of a script, what the check knows before it and the state that it is carried out on. -/
structure Point where
  env : Env
  piece : Piece
  state : State

namespace Point

/-- What is carried out within a part. Each premise is the outcome of what comes before. -/
inductive Part : Point → Point → Prop where
  | operands {env : Env} {e : Expr} {s : State} :
      Part ⟨env, .expression e, s⟩ ⟨env, .expressions e.children, s⟩
  | first {env : Env} {e : Expr} {es : List Expr} {s : State} :
      Part ⟨env, .expressions (e :: es), s⟩ ⟨env, .expression e, s⟩
  | further {env : Env} {e : Expr} {es : List Expr} {s t : State} {held : List Value} {v : Value} :
      e.eval held s = .ok v t → Part ⟨env, .expressions (e :: es), s⟩ ⟨env, .expressions es, t⟩
  | ofStatement {env : Env} {st : Statement} {s : State} :
      Part ⟨env, .statement st, s⟩ ⟨env, .expressions st.children, s⟩
  | head {env : Env} {st : Statement} {sts : List Statement} {s : State} :
      Part ⟨env, .block (st :: sts), s⟩ ⟨env, .statement st, s⟩
  | next {env env' : Env} {st : Statement} {sts : List Statement} {s t : State} {held : List Value} {passes : Nat}
      {r : Option Value} : st.exec held passes s = .ok r t → st.check env = .ok env' →
      Part ⟨env, .block (st :: sts), s⟩ ⟨env', .block sts, t⟩
  | choice {env : Env} {line : Nat} {branches : List (Expr × List Statement)} {otherwise : Option (List Statement)}
      {s : State} : Part ⟨env, .statement (.choice line branches otherwise), s⟩ ⟨env, .branches line branches otherwise, s⟩
  | condition {env : Env} {line : Nat} {condition : Expr} {body : List Statement}
      {rest : List (Expr × List Statement)} {otherwise : Option (List Statement)} {s : State} :
      Part ⟨env, .branches line ((condition, body) :: rest) otherwise, s⟩ ⟨env, .expression condition, s⟩
  | taken {env : Env} {line : Nat} {condition : Expr} {body : List Statement} {rest : List (Expr × List Statement)}
      {otherwise : Option (List Statement)} {s t : State} {held : List Value} {v : Value} :
      condition.eval held s = .ok v t →
      Part ⟨env, .branches line ((condition, body) :: rest) otherwise, s⟩ ⟨env.enter, .block body, t.enter⟩
  | passed {env env' : Env} {line : Nat} {condition : Expr} {body : List Statement}
      {rest : List (Expr × List Statement)} {otherwise : Option (List Statement)} {s t : State} {held : List Value}
      {v : Value} : condition.eval held s = .ok v t → Statement.checkAll env.enter body = .ok env' →
      Part ⟨env, .branches line ((condition, body) :: rest) otherwise, s⟩ ⟨env'.leave, .branches line rest otherwise, t⟩
  | otherwise {env : Env} {line : Nat} {body : List Statement} {s : State} :
      Part ⟨env, .branches line [] (some body), s⟩ ⟨env.enter, .block body, s.enter⟩
  | whileBody {env : Env} {line : Nat} {condition : Expr} {body : List Statement} {s t : State} {held : List Value}
      {v : Value} : condition.eval held s = .ok v t →
      Part ⟨env, .statement (.loop line condition body), s⟩ ⟨env.enter, .block body, t.enter⟩
  | whileAgain {env : Env} {line : Nat} {condition : Expr} {body : List Statement} {s t u : State}
      {held : List Value} {passes : Nat} {v : Value} : condition.eval held s = .ok v t →
      nested (Statement.execAll held passes body) t = .ok () u →
      Part ⟨env, .statement (.loop line condition body), s⟩ ⟨env, .statement (.loop line condition body), u⟩
  | overRange {env : Env} {line : Nat} {name : String} {start bound : Expr} {inclusive : Bool}
      {body : List Statement} {s t u : State} {held : List Value} {a b : Int64} :
      start.eval held s = .ok (.integer a) t → bound.eval held t = .ok (.integer b) u →
      Part ⟨env, .statement (.each line name (.range start bound inclusive) body), s⟩
        ⟨env, .turns name Ty.integer body (integersFrom (rangeSize a b inclusive) a), u⟩
  | overElements {env : Env} {line : Nat} {name : String} {e : Expr} {body : List Statement} {τ element : Ty}
      {s t : State} {held : List Value} {vs : List Value} : e.eval held s = .ok (.collection element vs) t →
      (Source.elements e).typeIn env line = .ok τ →
      Part ⟨env, .statement (.each line name (.elements e) body), s⟩ ⟨env, .turns name τ body vs, t⟩
  | turn {env : Env} {name : String} {τ : Ty} {body : List Statement} {v : Value} {vs : List Value} {s : State} :
      Part ⟨env, .turns name τ body (v :: vs), s⟩
        ⟨(env.enter.define name τ).enter, .block body, (s.enter.declare name v).enter⟩
  | nextTurn {env : Env} {line : Nat} {name : String} {τ : Ty} {body : List Statement} {v : Value} {vs : List Value}
      {s t : State} {held : List Value} {passes : Nat} :
      pass line name v (Statement.execAll held passes body) s = .ok () t →
      Part ⟨env, .turns name τ body (v :: vs), s⟩ ⟨env, .turns name τ body vs, t⟩
  | attempt {env : Env} {line : Nat} {body : List Statement} {handlers : List (Handler Statement)} {s : State} :
      Part ⟨env, .statement (.attempt line body handlers), s⟩ ⟨env.enter, .block body, s.enter⟩
  | caught {env env' : Env} {line : Nat} {body : List Statement} {handlers : List (Handler Statement)} {s t : State}
      {held : List Value} {passes : Nat} {f : Fault} :
      failure? (nested (Statement.execAll held passes body)) s = .ok (some f) t →
      Statement.checkAll env.enter body = .ok env' →
      Part ⟨env, .statement (.attempt line body handlers), s⟩ ⟨env'.leave, .handlers f.message handlers, t⟩
  | handler {env : Env} {message : String} {handler : Handler Statement} {rest : List (Handler Statement)} {s : State} :
      Part ⟨env, .handlers message (handler :: rest), s⟩
        ⟨env.handling, .block handler.body, s.enter.declare errorVariable (.literal message)⟩
  | nextHandler {env env' : Env} {message : String} {handler : Handler Statement} {rest : List (Handler Statement)}
      {s : State} : Statement.checkAll env.handling handler.body = .ok env' →
      Part ⟨env, .handlers message (handler :: rest), s⟩ ⟨env'.leave, .handlers message rest, s⟩

/-- What is carried out within a part at any depth. -/
inductive Within : Point → Point → Prop where
  | refl {p : Point} : Within p p
  | step {p q r : Point} : Within p q → q.Part r → Within p r

/-- An expression has the type that the check tells, and no error is one of types, whether it leaves
the part or a handler takes it. Everything else is made up of expressions and blocks. -/
def Sound : Point → Prop
  | ⟨env, .expression e, s⟩ =>
    ∀ held, Ends (e.eval held) s (fun v _ => e.typeIn env = .ok v.type) fun h _ => h.IsHarmless
  | ⟨_, .statement st, s⟩ =>
    (∀ held passes, Ends (st.exec held passes) s (fun _ _ => True) fun h _ => h.IsHarmless) ∧
      ∀ line body handlers, st = .attempt line body handlers → ∀ held passes f t,
        failure? (nested (Statement.execAll held passes body)) s = .ok (some f) t → f.cause.isTypeError = false
  | ⟨_, .block sts, s⟩ =>
    ∀ held passes, Ends (Statement.execAll held passes sts) s (fun _ _ => True) fun h _ => h.IsHarmless
  | _ => True

end Point

/-! ## What the check lets through -/

section Accepted

variable {env env' : Env}

/-- Whether the check lets expressions without nulls through. -/
def Expr.Accepted (env : Env) (es : List Expr) : Prop :=
  (∃ types, Expr.typesIn env es = .ok types) ∧ Expr.areCore env es = true

/-- Whether the check lets a block without nulls through. -/
def Statement.Accepted (env : Env) (sts : List Statement) : Prop :=
  (∃ env', Statement.checkAll env sts = .ok env') ∧ Statement.areCore env sts = true

/-- Whether the check lets a part without nulls through. -/
def Piece.Accepted (env : Env) : Piece → Prop
  | .expression e => (∃ t, e.typeIn env = .ok t) ∧ e.isCore env = true
  | .expressions es => Expr.Accepted env es
  | .statement st => (∃ env', st.check env = .ok env') ∧ st.isCore env = true
  | .block sts => Statement.Accepted env sts
  | .branches line rest last =>
    ((∃ env', Statement.checkBranches line env rest = .ok env') ∧ Statement.branchesCore line env rest = true) ∧
      (∃ env', Statement.checkOptional env last = .ok env') ∧ Statement.optionalCore env last = true
  | .turns name t body vs => Statement.Accepted (env.enter.define name t).enter body ∧ ∀ v ∈ vs, v.HasType t
  | .handlers _ rest =>
    (∃ env', Statement.checkHandlers env rest = .ok env') ∧ Statement.handlersCore env rest = true

/-- A part that the check lets through, on a state that fits. -/
structure Point.Accepted (p : Point) : Prop where
  fits : p.env.Fits p.state
  piece : p.piece.Accepted p.env

theorem Expr.accepted_nil : Expr.Accepted env [] := ⟨⟨[], rfl⟩, rfl⟩

theorem Expr.accepted_cons {e : Expr} {es : List Expr} {t : Ty} (h : e.typeIn env = .ok t) (hc : e.isCore env = true)
    (hes : Expr.Accepted env es) : Expr.Accepted env (e :: es) := by
  obtain ⟨⟨types, htypes⟩, hcs⟩ := hes
  refine ⟨⟨t :: types, ?_⟩, ?_⟩
  · rw [Expr.typesIn, h, htypes]
    rfl
  · rw [Expr.areCore, hc, hcs, Bool.and_self]

theorem Expr.cons_parts {e : Expr} {es : List Expr} (h : Expr.Accepted env (e :: es)) :
    ∃ t, e.typeIn env = .ok t ∧ e.isCore env = true ∧ Expr.Accepted env es := by
  obtain ⟨⟨types, h⟩, hc⟩ := h
  rw [Expr.typesIn] at h
  rw [Expr.areCore, Bool.and_eq_true] at hc
  obtain ⟨t, ht, h⟩ := Check.ok_of_bind h
  obtain ⟨ts, hts, -⟩ := Check.ok_of_bind h
  exact ⟨t, ht, hc.1, ⟨ts, hts⟩, hc.2⟩

theorem Statement.cons_parts {st : Statement} {rest : List Statement} (h : Statement.Accepted env (st :: rest)) :
    ∃ env₁, st.check env = .ok env₁ ∧ st.isCore env = true ∧ Statement.Accepted env₁ rest := by
  obtain ⟨⟨env', h⟩, hc⟩ := h
  rw [Statement.checkAll] at h
  obtain ⟨env₁, hst, h⟩ := Check.ok_of_bind h
  rw [Statement.areCore, hst, Bool.and_eq_true] at hc
  exact ⟨env₁, hst, hc.1, ⟨env', h⟩, hc.2⟩

/-- The first expressions of an expression are let through with it. -/
theorem Expr.accepted_children {e : Expr} {t : Ty} (h : e.typeIn env = .ok t) (hc : e.isCore env = true) :
    Expr.Accepted env e.children := by
  cases e with
  | constant | var => exact accepted_nil
  | unary line op e =>
    rw [Expr.typeIn] at h
    rw [Expr.isCore] at hc
    obtain ⟨t, ht, -⟩ := Check.ok_of_bind h
    exact accepted_cons ht hc accepted_nil
  | field line e position =>
    rw [Expr.typeIn] at h
    rw [Expr.isCore] at hc
    obtain ⟨t, ht, -⟩ := Check.ok_of_bind h
    exact accepted_cons ht hc accepted_nil
  | binary line op left right =>
    rw [Expr.typeIn] at h
    rw [Expr.isCore, Bool.and_eq_true, Bool.and_eq_true] at hc
    obtain ⟨t, ht, h⟩ := Check.ok_of_bind h
    obtain ⟨u, hu, -⟩ := Check.ok_of_bind h
    exact accepted_cons ht hc.1.2 (accepted_cons hu hc.2 accepted_nil)
  | index line target position =>
    rw [Expr.typeIn] at h
    rw [Expr.isCore, Bool.and_eq_true] at hc
    obtain ⟨t, ht, h⟩ := Check.ok_of_bind h
    obtain ⟨u, hu, -⟩ := Check.ok_of_bind h
    exact accepted_cons ht hc.1 (accepted_cons hu hc.2 accepted_nil)
  | call line name es =>
    rw [Expr.typeIn] at h
    rw [Expr.isCore, Bool.and_eq_true] at hc
    obtain ⟨types, htypes, -⟩ := Check.ok_of_bind h
    exact ⟨⟨types, htypes⟩, hc.1⟩
  | collection line es =>
    rw [Expr.typeIn] at h
    rw [Expr.isCore, Bool.and_eq_true] at hc
    obtain ⟨u, hu, -⟩ := Check.ok_of_bind h
    obtain ⟨types, htypes, -⟩ := Expr.types_of_elements hu
    exact ⟨⟨types, htypes⟩, hc.2⟩
  | member line e m es =>
    rw [Expr.typeIn] at h
    rw [Expr.isCore, Bool.and_eq_true] at hc
    obtain ⟨t, ht, h⟩ := Check.ok_of_bind h
    obtain ⟨types, htypes, -⟩ := Check.ok_of_bind h
    exact accepted_cons ht hc.1 ⟨⟨types, htypes⟩, hc.2⟩

/-- The first expressions of a statement are let through with it. -/
theorem Statement.accepted_children {st : Statement} (h : st.check env = .ok env') (hc : st.isCore env = true)
    (ht : env.IsTyped) : Expr.Accepted env st.children := by
  cases st with
  | choice | raise | attempt | load => exact Expr.accepted_nil
  | expression line e =>
    rw [Statement.check] at h
    rw [Statement.isCore] at hc
    obtain ⟨t, he, -⟩ := Check.ok_of_map h
    exact Expr.accepted_cons he hc Expr.accepted_nil
  | declare line name e =>
    rw [Statement.check] at h
    rw [Statement.isCore] at hc
    obtain ⟨t, he, -⟩ := Check.ok_of_bind h
    exact Expr.accepted_cons he hc Expr.accepted_nil
  | assign line name e =>
    rw [Statement.check] at h
    rw [Statement.isCore] at hc
    obtain ⟨t, he, -⟩ := Check.ok_of_bind h
    exact Expr.accepted_cons he hc Expr.accepted_nil
  | compound line name op e =>
    rw [Statement.check] at h
    rw [Statement.isCore, Bool.and_eq_true] at hc
    obtain ⟨target, -, h⟩ := Check.ok_of_bind h
    obtain ⟨t, he, -⟩ := Check.ok_of_bind h
    exact Expr.accepted_cons he hc.2 Expr.accepted_nil
  | loop line condition body =>
    obtain ⟨⟨⟨t, he, hec, -⟩, -⟩, -⟩ := Statement.loop_parts h hc ht
    exact Expr.accepted_cons he hec Expr.accepted_nil
  | each line name source body =>
    obtain ⟨t, env₁, hsource, hsc, -⟩ := Statement.each_parts h hc
    cases source with
    | range start bound inclusive =>
      rw [Source.isCore, Bool.and_eq_true] at hsc
      obtain ⟨-, ⟨t₁, hstart, -⟩, ⟨t₂, hbound, -⟩⟩ := Source.range_parts hsource
      exact Expr.accepted_cons hstart hsc.1 (Expr.accepted_cons hbound hsc.2 Expr.accepted_nil)
    | elements e =>
      rw [Source.isCore] at hsc
      obtain ⟨u, he, -⟩ := Source.elements_parts hsource
      exact Expr.accepted_cons he hsc Expr.accepted_nil

theorem hasType_integersFrom (n : Nat) (i : Int64) : ∀ v ∈ integersFrom n i, v.HasType Ty.integer := by
  induction n generalizing i with
  | zero => exact nofun
  | succ n ih =>
    intro v hv
    rcases List.mem_cons.mp hv with rfl | hv
    · exact ⟨.integer i, rfl⟩
    · exact ih (i + 1) v hv

end Accepted

/-! ## Along a run -/

namespace Point

/-- What is carried out within a part is let through with it, on states that fit. -/
theorem Part.accepted {p q : Point} (h : p.Part q) (hp : p.Accepted) : q.Accepted := by
  obtain ⟨hs, hp⟩ := hp
  have ht := hs.isTyped
  cases h with
  | operands =>
    obtain ⟨⟨t, h⟩, hc⟩ := hp
    exact ⟨hs, Expr.accepted_children h hc⟩
  | first =>
    obtain ⟨t, he, hec, -⟩ := Expr.cons_parts hp
    exact ⟨hs, ⟨t, he⟩, hec⟩
  | further hx =>
    obtain ⟨t, he, hec, hes⟩ := Expr.cons_parts hp
    exact ⟨((Expr.safe_eval he hec).of_ok hs hx).1, hes⟩
  | ofStatement =>
    obtain ⟨⟨env', h⟩, hc⟩ := hp
    exact ⟨hs, Statement.accepted_children h hc ht⟩
  | head =>
    obtain ⟨env₁, hst, hsc, -⟩ := Statement.cons_parts hp
    exact ⟨hs, ⟨env₁, hst⟩, hsc⟩
  | next hx hst =>
    obtain ⟨env₁, hst', hsc, hrest⟩ := Statement.cons_parts hp
    cases hst.symm.trans hst'
    exact ⟨(ends_of_ok hx).mp (Statement.leads_exec _ _ _ hst hsc _ hs), hrest⟩
  | choice =>
    obtain ⟨⟨env', h⟩, hc⟩ := hp
    obtain ⟨hb, hbc, ho, hoc, -⟩ := Statement.choice_parts h hc ht
    exact ⟨hs, ⟨⟨_, hb⟩, hbc⟩, ⟨_, ho⟩, hoc⟩
  | condition =>
    obtain ⟨⟨⟨env', h⟩, hc⟩, -⟩ := hp
    obtain ⟨⟨⟨t, he, hec, -⟩, -⟩, -⟩ := Statement.branches_parts h hc ht
    exact ⟨hs, ⟨t, he⟩, hec⟩
  | taken hx =>
    obtain ⟨⟨⟨env', h⟩, hc⟩, -⟩ := hp
    obtain ⟨⟨⟨t, he, hec, -⟩, ⟨env₁, hb, hbc, -⟩⟩, -⟩ := Statement.branches_parts h hc ht
    exact ⟨((Expr.safe_eval he hec).of_ok hs hx).1.enter, ⟨env₁, hb⟩, hbc⟩
  | passed hx hb =>
    obtain ⟨⟨⟨env', h⟩, hc⟩, ho⟩ := hp
    obtain ⟨⟨⟨t, he, hec, -⟩, ⟨env₁, hb', -, hl⟩⟩, hrest, hrc⟩ := Statement.branches_parts h hc ht
    cases hb.symm.trans hb'
    refine ⟨?_, ?_⟩
    · simpa only [hl] using ((Expr.safe_eval he hec).of_ok hs hx).1
    · simpa only [hl] using ⟨⟨⟨env', hrest⟩, hrc⟩, ho⟩
  | otherwise =>
    obtain ⟨-, ⟨env', h⟩, hc⟩ := hp
    obtain ⟨⟨env₁, hb, hbc, -⟩, -⟩ := Statement.optional_parts h hc ht
    exact ⟨hs.enter, ⟨env₁, hb⟩, hbc⟩
  | whileBody hx =>
    obtain ⟨⟨env', h⟩, hc⟩ := hp
    obtain ⟨⟨⟨t, he, hec, -⟩, ⟨env₁, hb, hbc, -⟩⟩, -⟩ := Statement.loop_parts h hc ht
    exact ⟨((Expr.safe_eval he hec).of_ok hs hx).1.enter, ⟨env₁, hb⟩, hbc⟩
  | whileAgain hx hn =>
    have hagain := hp
    obtain ⟨⟨env', h⟩, hc⟩ := hp
    obtain ⟨⟨⟨t, he, hec, -⟩, ⟨env₁, hb, hbc, hl⟩⟩, -⟩ := Statement.loop_parts h hc ht
    have hs₁ := ((Expr.safe_eval he hec).of_ok hs hx).1
    exact ⟨((safe_nested (Statement.leads_execAll _ _ _ hb hbc) hl).of_ok hs₁ hn).1, hagain⟩
  | overRange ha hb =>
    obtain ⟨⟨env', h⟩, hc⟩ := hp
    obtain ⟨t, env₁, hsource, hsc, hbody, hbc, -⟩ := Statement.each_parts h hc
    obtain ⟨rfl, ⟨t₁, hstart, -⟩, ⟨t₂, hbound, -⟩⟩ := Source.range_parts hsource
    rw [Source.isCore, Bool.and_eq_true] at hsc
    have hs₁ := ((Expr.safe_eval hstart hsc.1).of_ok hs ha).1
    have hs₂ := ((Expr.safe_eval hbound hsc.2).of_ok hs₁ hb).1
    exact ⟨hs₂, ⟨⟨env₁, hbody⟩, hbc⟩, hasType_integersFrom _ _⟩
  | overElements hx hsource =>
    obtain ⟨⟨env', h⟩, hc⟩ := hp
    obtain ⟨t, env₁, hsource', hsc, hbody, hbc, -⟩ := Statement.each_parts h hc
    cases hsource.symm.trans hsource'
    obtain ⟨u, he, helement⟩ := Source.elements_parts hsource
    rw [Source.isCore] at hsc
    obtain ⟨hs₁, hv⟩ := (Expr.safe_eval he hsc).of_ok hs hx
    obtain ⟨items, hitems, hall⟩ := hv.elements (helement hv.tySolid)
    cases hitems
    exact ⟨hs₁, ⟨⟨env₁, hbody⟩, hbc⟩, hall⟩
  | turn =>
    obtain ⟨hbody, hvs⟩ := hp
    exact ⟨(hs.enter.define (hvs _ List.mem_cons_self)).enter, hbody⟩
  | nextTurn hx =>
    have hbody := hp.1
    obtain ⟨⟨⟨env₁, hb⟩, hbc⟩, hvs⟩ := hp
    have hv := hvs _ List.mem_cons_self
    have hl := Env.leave_turn ht hv.tySolid.kind_ne hb hbc
    have hpass := (safe_pass hv (Statement.leads_execAll _ _ _ hb hbc) hl).of_ok hs hx
    exact ⟨hpass.1, hbody, fun v hmem => hvs v (List.mem_cons_of_mem _ hmem)⟩
  | attempt =>
    obtain ⟨⟨env', h⟩, hc⟩ := hp
    obtain ⟨⟨env₁, hb, hbc, -⟩, -⟩ := Statement.attempt_parts h hc ht
    exact ⟨hs.enter, ⟨env₁, hb⟩, hbc⟩
  | caught hx hb =>
    obtain ⟨⟨env', h⟩, hc⟩ := hp
    obtain ⟨⟨env₁, hb', hbc, hl⟩, hh, hhc, -⟩ := Statement.attempt_parts h hc ht
    cases hb.symm.trans hb'
    have hs₁ := ((safe_failure? (safe_nested (Statement.leads_execAll _ _ _ hb hbc) hl)).of_ok hs hx).1
    refine ⟨?_, ?_⟩
    · simpa only [hl] using hs₁
    · simpa only [hl] using ⟨⟨_, hh⟩, hhc⟩
  | handler =>
    obtain ⟨⟨env', h⟩, hc⟩ := hp
    obtain ⟨⟨env₁, hb, hbc, -⟩, -⟩ := Statement.handlers_parts h hc ht
    exact ⟨hs.enter.define ⟨.literal _, rfl⟩, ⟨env₁, hb⟩, hbc⟩
  | nextHandler hb =>
    obtain ⟨⟨env', h⟩, hc⟩ := hp
    obtain ⟨⟨env₁, hb', -, hl⟩, hrest, hrc⟩ := Statement.handlers_parts h hc ht
    cases hb.symm.trans hb'
    refine ⟨?_, ?_⟩
    · simpa only [hl] using hs
    · simpa only [hl] using ⟨⟨env', hrest⟩, hrc⟩

/-- What is let through is sound. -/
theorem Accepted.sound {p : Point} (h : p.Accepted) : p.Sound := by
  obtain ⟨env, piece, s⟩ := p
  obtain ⟨hs, hp⟩ := h
  cases piece with
  | expression e =>
    obtain ⟨⟨t, h⟩, hc⟩ := hp
    intro held
    refine (Expr.safe_eval h hc s hs).mono (fun v t' hv => ?_) fun _ _ he => he.2
    rw [hv.2.type]
    exact h
  | statement st =>
    obtain ⟨⟨env', h⟩, hc⟩ := hp
    refine ⟨fun held passes => ?_, ?_⟩
    · exact (Statement.leads_exec held passes st h hc s hs).mono (fun _ _ _ => trivial) fun _ _ he => he.2
    · rintro line body handlers rfl held passes f t hx
      obtain ⟨⟨env₁, hb, hbc, hl⟩, -⟩ := Statement.attempt_parts h hc hs.isTyped
      exact ((safe_failure? (safe_nested (Statement.leads_execAll held passes body hb hbc) hl)).of_ok hs hx).2 f rfl
  | block sts =>
    obtain ⟨⟨env', h⟩, hc⟩ := hp
    exact fun held passes =>
      (Statement.leads_execAll held passes sts h hc s hs).mono (fun _ _ _ => trivial) fun _ _ he => he.2
  | expressions | branches | turns | handlers => trivial

theorem Within.accepted {p q : Point} (h : p.Within q) (hp : p.Accepted) : q.Accepted := by
  induction h with
  | refl => exact hp
  | step _ hpart ih => exact hpart.accepted ih

end Point

/-! ## Scripts -/

/-- What the check knows before anything has run fits. -/
theorem Session.fits_fresh (engine : Pattern.Engine) (random : Random) (input : List UInt8) (disk : Disk) :
    (Session.env (State.fresh engine random input disk)).Fits (State.fresh engine random input disk) where
  types := rfl
  values := by simp [State.fresh, Scopes.All]
  known := rfl
  imports := rfl

/-- A script without nulls that the check lets through never fails for types, and at every point of
its run, whether inside of a handled block or not, expressions have the types that the check tells and
no error is one of types. -/
theorem Program.type_sound (engine : Pattern.Engine) (random : Random) (input : List UInt8) (disk : Disk)
    {p : Program} {env' : Env} (h : p.check (Session.env (State.fresh engine random input disk)) = .ok env')
    (hc : p.isCore (Session.env (State.fresh engine random input disk)) = true) :
    (∀ passes e s, p.exec passes (State.fresh engine random input disk) = .error e s → e.IsHarmless) ∧
      ∀ q, Point.Within
          ⟨Session.env (State.fresh engine random input disk), .block p, State.fresh engine random input disk⟩ q →
        q.Sound := by
  have hs := Session.fits_fresh engine random input disk
  refine ⟨fun passes e s hx => ?_, fun q hq => ?_⟩
  · exact ((ends_of_error hx).mp (Program.leads_execFrom h hc _ hs)).2
  · exact (hq.accepted ⟨hs, ⟨env', h⟩, hc⟩).sound

/-- The message of a division by zero that a handler takes is a literal. -/
theorem Program.type_sound_handled :
    let body : List Statement := [.expression 2 (.binary 2 .div (.constant 2 (.integer 1)) (.constant 2 (.integer 0)))]
    let p : Program := [.attempt 1 body [⟨"others", 3, [.expression 4 (.var 4 "error")]⟩]]
    let s := State.fresh .bundled ⟨[], 0, []⟩ [] ⟨[], []⟩
    let q : Point := ⟨(Session.env s).handling, .expression (.var 4 "error"),
      s.enter.declare errorVariable (.literal "Error on line 2: Division by zero.")⟩
    ∃ env', p.check (Session.env s) = .ok env' ∧ p.isCore (Session.env s) = true ∧
      Point.Within ⟨Session.env s, .block p, s⟩ q ∧ q.Sound := by
  intro body p s q
  have hfails : failure? (nested (Statement.execAll [] 0 body)) s = .ok (some ⟨2, .divideByZero⟩) s := rfl
  have hbody : Statement.checkAll (Session.env s).enter body = .ok (Session.env s).enter := rfl
  have hhandlers : Point.Within ⟨Session.env s, .block p, s⟩
      ⟨Session.env s, .handlers (Fault.message ⟨2, .divideByZero⟩) [⟨"others", 3, [.expression 4 (.var 4 "error")]⟩], s⟩ :=
    (Point.Within.refl.step .head).step (.caught hfails hbody)
  have hwithin : Point.Within ⟨Session.env s, .block p, s⟩ q :=
    (((hhandlers.step .handler).step .head).step .ofStatement).step .first
  exact ⟨_, rfl, rfl, hwithin, (Program.type_sound .bundled ⟨[], 0, []⟩ [] ⟨[], []⟩ rfl rfl).2 q hwithin⟩

end Crunch
