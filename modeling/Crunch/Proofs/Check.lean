import Crunch.Check

/-!
# Crunch.Proofs.Check

What a check that succeeds has made sure of.

* `Check.ok_of_bind`: its parts have succeeded one after the other.
* `Check.function_ok`: what is known of the arguments of a function.
* `Statement.choice_ok` and the like: what is checked within a statement, and what is known after it.
-/

namespace Crunch

namespace Check

/-- A check in two parts that succeeds has two parts that do. -/
theorem ok_of_bind {α β ε : Type} {x : Except ε α} {f : α → Except ε β} {b : β} (h : x >>= f = .ok b) :
    ∃ a, x = .ok a ∧ f a = .ok b := by
  cases x with
  | error e => cases h
  | ok a => exact ⟨a, rfl, h⟩

theorem ok_of_map {α β ε : Type} {x : Except ε α} {f : α → β} {b : β} (h : x.map f = .ok b) :
    ∃ a, x = .ok a ∧ f a = b := by
  cases x with
  | error e => cases h
  | ok a => exact ⟨a, rfl, Except.ok.inj h⟩

/-- A check of each element of a list. -/
theorem forM_ok {α ε : Type} {f : α → Except ε Unit} {l : List α} (h : l.forM f = .ok ()) :
    ∀ a ∈ l, f a = .ok () := by
  induction l with
  | nil => simp
  | cons a l ih =>
    obtain ⟨u, ha, hl⟩ := ok_of_bind h
    intro b hb
    rcases List.mem_cons.mp hb with rfl | hb
    · exact ha
    · exact ih hl b hb

/-- What the check of a call makes sure of. -/
theorem function_ok {line : Nat} {b : Builtin} {types : List Ty} {assignable : List Bool} {t : Ty}
    (h : function line b types assignable = .ok t) :
    b.arity.admits types.length = true ∧
      (∀ i t a, types[i]? = some t → assignable[i]? = some a →
        (b.domain i).admits t = true ∧ (b.domain i = .literalVariable → a = true)) ∧
      oneOrder b types = true ∧ t = b.result types := by
  simp only [function] at h
  split at h
  · cases h
  · rename_i ha
    obtain ⟨u, hd, h⟩ := ok_of_bind h
    split at h
    · rename_i ho
      cases h
      refine ⟨by simpa using ha, fun i t a ht hia => ?_, ho, rfl⟩
      have hmem : ((t, a), i) ∈ (types.zip assignable).zipIdx := by
        rw [List.mem_zipIdx_iff_getElem?, List.getElem?_zip_eq_some]
        exact ⟨ht, hia⟩
      have hone := forM_ok hd _ hmem
      simp only at hone
      split at hone
      · cases hone
      · split at hone
        · cases hone
        · rename_i hadm hvar
          exact ⟨by simpa using hadm, fun hl => by simpa [hl] using hvar⟩
    · cases h

end Check

variable {env env' : Env} {line : Nat} {name : String} {t : Ty} {body rest : List Statement}

/-! ## Variables and native types -/

theorem Env.find?_of_lookup (h : env.lookup line name = .ok t) : env.scopes.find? name = some t := by
  unfold Env.lookup at h
  split at h
  · cases h
    assumption
  · cases h

/-- What is assigned to is known, and takes the type if it has none. -/
theorem Env.assign_ok (h : env.assign line name t = .ok env') :
    (∃ target, env.scopes.find? name = some target) ∧ env' = env.adopt name t := by
  obtain ⟨target, hl, h⟩ := Check.ok_of_bind h
  refine ⟨⟨target, find?_of_lookup hl⟩, ?_⟩
  split at h
  · cases h
    rfl
  · cases h

theorem Env.importType_ok (h : env.importType line name = .ok env') :
    (env.interface? name).isSome = true ∧
      env' = { env with imports := if env.imports.contains name then env.imports else name :: env.imports } := by
  unfold importType at h
  split at h
  · cases h
  · rename_i hi
    cases h
    exact ⟨by rw [hi, Option.isSome_some], rfl⟩

/-! ## Expressions -/

namespace Expr

variable {e : Expr} {es : List Expr} {types : List Ty}

theorem typesIn_cons (h : e.typeIn env = .ok t) (hes : Expr.typesIn env es = .ok types) :
    Expr.typesIn env (e :: es) = .ok (t :: types) := by
  rw [Expr.typesIn, h, hes]
  rfl

theorem typesIn_single (h : e.typeIn env = .ok t) : Expr.typesIn env [e] = .ok [t] := typesIn_cons h rfl

theorem cons_ok (h : Expr.typesIn env (e :: es) = .ok types) :
    ∃ t ts, e.typeIn env = .ok t ∧ Expr.typesIn env es = .ok ts := by
  rw [Expr.typesIn] at h
  obtain ⟨t, ht, h⟩ := Check.ok_of_bind h
  obtain ⟨ts, hts, -⟩ := Check.ok_of_bind h
  exact ⟨t, ts, ht, hts⟩

end Expr

/-! ## Statements -/

/-- What the check of the bounds of a range makes sure of. -/
theorem Source.range_parts {start bound : Expr} {inclusive : Bool}
    (h : (Source.range start bound inclusive).typeIn env line = .ok t) :
    t = Ty.integer ∧ (∃ u, start.typeIn env = .ok u ∧ Check.bound line u = .ok ()) ∧
      ∃ u, bound.typeIn env = .ok u ∧ Check.bound line u = .ok () := by
  rw [Source.typeIn] at h
  obtain ⟨t₁, h₁, h⟩ := Check.ok_of_bind h
  obtain ⟨_, hb₁, h⟩ := Check.ok_of_bind h
  obtain ⟨t₂, h₂, h⟩ := Check.ok_of_bind h
  obtain ⟨_, hb₂, h⟩ := Check.ok_of_bind h
  cases h
  exact ⟨rfl, ⟨t₁, h₁, hb₁⟩, ⟨t₂, h₂, hb₂⟩⟩

namespace Statement

theorem compound_ok {op : BinaryOp} {e : Expr} (h : (compound line name op e).check env = .ok env') :
    (∃ t, e.typeIn env = .ok t) ∧ ∃ r, env.assign line name r = .ok env' := by
  rw [check] at h
  obtain ⟨target, -, h⟩ := Check.ok_of_bind h
  obtain ⟨t, he, h⟩ := Check.ok_of_bind h
  refine ⟨⟨t, he⟩, ?_⟩
  split at h
  · exact ⟨_, h⟩
  · cases h

theorem choice_ok {branches : List (Expr × List Statement)} {last : Option (List Statement)}
    (h : (choice line branches last).check env = .ok env') :
    ∃ env₁, checkBranches line env branches = .ok env₁ ∧ checkOptional env₁ last = .ok env' := by
  rw [check] at h
  exact Check.ok_of_bind h

theorem loop_ok {condition : Expr} (h : (loop line condition body).check env = .ok env') :
    (∃ t, condition.typeIn env = .ok t) ∧ ∃ env₁, checkAll env.enter body = .ok env₁ ∧ env' = env₁.leave := by
  rw [check] at h
  obtain ⟨t, he, h⟩ := Check.ok_of_bind h
  obtain ⟨_, -, h⟩ := Check.ok_of_bind h
  obtain ⟨env₁, hb, h⟩ := Check.ok_of_bind h
  cases h
  exact ⟨⟨t, he⟩, env₁, hb, rfl⟩

theorem each_ok {source : Source} (h : (each line name source body).check env = .ok env') :
    ∃ t, source.typeIn env line = .ok t ∧
      ∃ env₁, checkAll (env.enter.define name t).enter body = .ok env₁ ∧ env' = env₁.leave.leave := by
  rw [check] at h
  obtain ⟨t, hs, h⟩ := Check.ok_of_bind h
  obtain ⟨env₁, hb, h⟩ := Check.ok_of_bind h
  cases h
  exact ⟨t, hs, env₁, hb, rfl⟩

theorem attempt_ok {handlers : List (Handler Statement)} (h : (attempt line body handlers).check env = .ok env') :
    ∃ env₁, checkAll env.enter body = .ok env₁ ∧ checkHandlers env₁.leave handlers = .ok env' := by
  rw [check] at h
  exact Check.ok_of_bind h

theorem cons_ok {st : Statement} (h : checkAll env (st :: rest) = .ok env') :
    ∃ env₁, st.check env = .ok env₁ ∧ checkAll env₁ rest = .ok env' := by
  rw [checkAll] at h
  exact Check.ok_of_bind h

theorem branch_ok {condition : Expr} {rest : List (Expr × List Statement)}
    (h : checkBranches line env ((condition, body) :: rest) = .ok env') :
    (∃ t, condition.typeIn env = .ok t) ∧
      ∃ env₁, checkAll env.enter body = .ok env₁ ∧ checkBranches line env₁.leave rest = .ok env' := by
  rw [checkBranches] at h
  obtain ⟨t, he, h⟩ := Check.ok_of_bind h
  obtain ⟨_, -, h⟩ := Check.ok_of_bind h
  exact ⟨⟨t, he⟩, Check.ok_of_bind h⟩

theorem last_ok (h : checkOptional env (some body) = .ok env') :
    ∃ env₁, checkAll env.enter body = .ok env₁ ∧ env' = env₁.leave := by
  rw [checkOptional] at h
  obtain ⟨env₁, hb, h⟩ := Check.ok_of_bind h
  cases h
  exact ⟨env₁, hb, rfl⟩

theorem handler_ok {handler : Handler Statement} {rest : List (Handler Statement)}
    (h : checkHandlers env (handler :: rest) = .ok env') :
    ∃ env₁, checkAll (env.enter.define errorVariable Ty.literal) handler.body = .ok env₁ ∧
      checkHandlers env₁.leave rest = .ok env' := by
  rw [checkHandlers] at h
  exact Check.ok_of_bind h

end Statement

end Crunch
