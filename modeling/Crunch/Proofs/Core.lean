import Crunch.Proofs.Functions
import Crunch.Proofs.Safe

/-!
# Crunch.Proofs.Core

The part of the language that has no nulls.

* `Expr.isCore`, `Statement.isCore`: no `null`, no empty collection, no import, no power, and only
  settled calls of functions.
* `Env.outer`: what the check knows of the scopes from some depth on.
* `Statement.check_outer`: a statement leaves what is known of the outer scopes as it is, if all
  variables there have a type with a kind.
-/

namespace Crunch

mutual

/-- Expressions without nulls. What a call of a function is settled for depends on the types of its
arguments. -/
def Expr.isCore (env : Env) : Expr → Bool
  | .constant _ .null => false
  | .constant _ _ | .var _ _ => true
  | .unary _ _ e => e.isCore env
  | .binary _ op left right => op != .power && left.isCore env && right.isCore env
  | .call _ name arguments =>
    Expr.areCore env arguments &&
      match Builtin.ofName? name, Expr.typesIn env arguments with
      | some b, .ok types => b.isSettled types
      | _, _ => true
  | .member _ receiver _ arguments => receiver.isCore env && Expr.areCore env arguments
  | .index _ target position => target.isCore env && position.isCore env
  | .field _ target _ => target.isCore env
  | .collection _ elements => !elements.isEmpty && Expr.areCore env elements

/-- Whether all of some expressions are without nulls. -/
def Expr.areCore (env : Env) : List Expr → Bool
  | [] => true
  | e :: es => e.isCore env && Expr.areCore env es

end

/-- Whether the expressions of a `for` are without nulls. -/
def Source.isCore (env : Env) : Source → Bool
  | .range start bound _ => start.isCore env && bound.isCore env
  | .elements e => e.isCore env

mutual

/-- Statements without nulls. -/
def Statement.isCore (env : Env) : Statement → Bool
  | .expression _ e | .declare _ _ e | .assign _ _ e => e.isCore env
  | .compound _ _ op e => op != .power && e.isCore env
  | .choice line branches otherwise =>
    Statement.branchesCore line env branches &&
      match Statement.checkBranches line env branches with
      | .ok env => Statement.optionalCore env otherwise
      | .error _ => true
  | .loop _ condition body => condition.isCore env && Statement.areCore env.enter body
  | .each line name source body =>
    source.isCore env &&
      match source.typeIn env line with
      | .ok t => Statement.areCore (env.enter.define name t).enter body
      | .error _ => true
  | .raise _ _ => true
  | .attempt _ body handlers =>
    Statement.areCore env.enter body &&
      match Statement.checkAll env.enter body with
      | .ok env => Statement.handlersCore env.leave handlers
      | .error _ => true
  | .load _ _ => false

/-- Whether statements in order are without nulls. -/
def Statement.areCore (env : Env) : List Statement → Bool
  | [] => true
  | s :: rest =>
    s.isCore env &&
      match s.check env with
      | .ok env => Statement.areCore env rest
      | .error _ => true

/-- Whether conditions with their blocks are without nulls. -/
def Statement.branchesCore (line : Nat) (env : Env) : List (Expr × List Statement) → Bool
  | [] => true
  | (condition, body) :: rest =>
    condition.isCore env && Statement.areCore env.enter body &&
      match Statement.checkAll env.enter body with
      | .ok env => Statement.branchesCore line env.leave rest
      | .error _ => true

/-- Whether a block, if there is one, is without nulls. -/
def Statement.optionalCore (env : Env) : Option (List Statement) → Bool
  | none => true
  | some body => Statement.areCore env.enter body

/-- Whether handlers are without nulls. -/
def Statement.handlersCore (env : Env) : List (Handler Statement) → Bool
  | [] => true
  | ⟨_, _, body⟩ :: rest =>
    Statement.areCore (env.enter.define errorVariable Ty.literal) body &&
      match Statement.checkAll (env.enter.define errorVariable Ty.literal) body with
      | .ok env => Statement.handlersCore env.leave rest
      | .error _ => true

end

/-- Whether a whole script is without nulls. -/
def Program.isCore (env : Env) (p : Program) : Bool := Statement.areCore env p

/-! ## Outer scopes -/

namespace Env

/-- What is known but for the innermost scopes. -/
def outer (k : Nat) (env : Env) : Env := { env with scopes := env.scopes.drop k }

variable {env env' : Env} {name : String} {t : Ty} {k : Nat}

theorem outer_enter : env.enter.outer (k + 1) = env.outer k := rfl

theorem outer_leave : env.leave.outer k = env.outer (k + 1) := by
  simp only [outer, leave, List.drop_drop, Nat.add_comm]

theorem outer_define : (env.define name t).outer (k + 1) = env.outer (k + 1) := by
  simp only [outer, define]
  cases env.scopes <;> rfl

/-- A variable with a type of a kind keeps it. -/
theorem drop_update {ss : Scopes Ty} {slot : Ty} (h : ss.find? name = some slot)
    (ht : Scopes.All (fun t => t.kind ≠ .noType) (ss.drop k)) :
    (ss.update name (Crunch.adopt slot t)).drop k = ss.drop k := by
  induction k generalizing ss with
  | zero =>
    have hk : slot.kind ≠ .noType := Scopes.All.find (p := fun t => t.kind ≠ .noType) ht h
    rw [adopt_of_kind hk, Scopes.update_find? h]
  | succ k ih =>
    cases ss with
    | nil => rfl
    | cons s rest =>
      simp only [Scopes.update]
      split
      · rfl
      · rename_i hs
        rw [Scopes.find?_cons, Option.or_eq_some_iff] at h
        rcases h with h | ⟨-, h⟩
        · exact absurd (Scope.has_iff.mpr ⟨slot, h⟩) hs
        · exact ih h ht

theorem outer_adopt (ht : (env.outer k).IsTyped) : (env.adopt name t).outer k = env.outer k := by
  unfold adopt
  split
  · rename_i slot hs
    simp only [outer, drop_update hs ht]
  · rfl

theorem outer_assign {line : Nat} (ht : (env.outer k).IsTyped) (h : env.assign line name t = .ok env') :
    env'.outer k = env.outer k := by
  obtain ⟨target, -, h⟩ := Check.ok_of_bind h
  split at h
  · cases h
    exact outer_adopt ht
  · cases h

end Env

mutual

/-- A statement leaves what is known of the outer scopes as it is. -/
theorem Statement.check_outer (st : Statement) {env env' : Env} {k : Nat} (h : st.check env = .ok env')
    (hc : st.isCore env = true) (ht : (env.outer (k + 1)).IsTyped) : env'.outer (k + 1) = env.outer (k + 1) := by
  cases st with
  | expression line e =>
    rw [Statement.check] at h
    obtain ⟨t, -, rfl⟩ := Check.ok_of_map h
    rfl
  | declare line name e =>
    rw [Statement.check] at h
    obtain ⟨t, -, h⟩ := Check.ok_of_bind h
    cases h
    exact Env.outer_define
  | assign line name e =>
    rw [Statement.check] at h
    obtain ⟨t, -, h⟩ := Check.ok_of_bind h
    exact Env.outer_assign ht h
  | compound line name op e =>
    rw [Statement.check] at h
    obtain ⟨target, -, h⟩ := Check.ok_of_bind h
    obtain ⟨t, -, h⟩ := Check.ok_of_bind h
    split at h
    · exact Env.outer_assign ht h
    · cases h
  | choice line branches otherwise =>
    rw [Statement.check] at h
    obtain ⟨env₁, hb, h⟩ := Check.ok_of_bind h
    rw [Statement.isCore, hb, Bool.and_eq_true] at hc
    have h₁ := Statement.checkBranches_outer branches hb hc.1 ht
    rw [← h₁] at ht ⊢
    exact Statement.checkOptional_outer otherwise h hc.2 ht
  | loop line condition body =>
    rw [Statement.check] at h
    obtain ⟨t, -, h⟩ := Check.ok_of_bind h
    obtain ⟨_, -, h⟩ := Check.ok_of_bind h
    obtain ⟨env₁, hb, h⟩ := Check.ok_of_bind h
    cases h
    rw [Statement.isCore, Bool.and_eq_true] at hc
    exact Env.outer_leave.trans (Statement.checkAll_outer body hb hc.2 ht)
  | each line name source body =>
    rw [Statement.check] at h
    obtain ⟨t, hs, h⟩ := Check.ok_of_bind h
    obtain ⟨env₁, hb, h⟩ := Check.ok_of_bind h
    cases h
    rw [Statement.isCore, hs, Bool.and_eq_true] at hc
    rw [Env.outer_leave, Env.outer_leave]
    have hdefine : (env.enter.define name t).enter.outer (k + 1 + 1 + 1) = env.outer (k + 1) := by
      rw [Env.outer_enter, Env.outer_define, Env.outer_enter]
    rw [Statement.checkAll_outer body hb hc.2 (hdefine ▸ ht), hdefine]
  | raise line name =>
    rw [Statement.check] at h
    cases h
    rfl
  | attempt line body handlers =>
    rw [Statement.check] at h
    obtain ⟨env₁, hb, h⟩ := Check.ok_of_bind h
    rw [Statement.isCore, hb, Bool.and_eq_true] at hc
    have h₁ := Env.outer_leave.trans (Statement.checkAll_outer body hb hc.1 ht)
    have h₂ : env₁.leave.outer (k + 1) = env.outer (k + 1) := h₁
    rw [← h₂] at ht ⊢
    exact Statement.checkHandlers_outer handlers h hc.2 ht
  | load line name => cases hc

theorem Statement.checkAll_outer (sts : List Statement) {env env' : Env} {k : Nat}
    (h : Statement.checkAll env sts = .ok env') (hc : Statement.areCore env sts = true)
    (ht : (env.outer (k + 1)).IsTyped) : env'.outer (k + 1) = env.outer (k + 1) := by
  cases sts with
  | nil =>
    rw [Statement.checkAll] at h
    cases h
    rfl
  | cons st rest =>
    rw [Statement.checkAll] at h
    obtain ⟨env₁, hst, h⟩ := Check.ok_of_bind h
    rw [Statement.areCore, hst, Bool.and_eq_true] at hc
    have h₁ := Statement.check_outer st hst hc.1 ht
    rw [← h₁] at ht ⊢
    exact Statement.checkAll_outer rest h hc.2 ht

theorem Statement.checkBranches_outer (branches : List (Expr × List Statement)) {env env' : Env} {k line : Nat}
    (h : Statement.checkBranches line env branches = .ok env') (hc : Statement.branchesCore line env branches = true)
    (ht : (env.outer (k + 1)).IsTyped) : env'.outer (k + 1) = env.outer (k + 1) := by
  cases branches with
  | nil =>
    rw [Statement.checkBranches] at h
    cases h
    rfl
  | cons branch rest =>
    obtain ⟨condition, body⟩ := branch
    rw [Statement.checkBranches] at h
    obtain ⟨t, -, h⟩ := Check.ok_of_bind h
    obtain ⟨_, -, h⟩ := Check.ok_of_bind h
    obtain ⟨env₁, hb, h⟩ := Check.ok_of_bind h
    rw [Statement.branchesCore, hb, Bool.and_eq_true, Bool.and_eq_true] at hc
    have h₁ : env₁.leave.outer (k + 1) = env.outer (k + 1) :=
      Env.outer_leave.trans (Statement.checkAll_outer body hb hc.1.2 ht)
    rw [← h₁] at ht ⊢
    exact Statement.checkBranches_outer rest h hc.2 ht

theorem Statement.checkOptional_outer (body : Option (List Statement)) {env env' : Env} {k : Nat}
    (h : Statement.checkOptional env body = .ok env') (hc : Statement.optionalCore env body = true)
    (ht : (env.outer (k + 1)).IsTyped) : env'.outer (k + 1) = env.outer (k + 1) := by
  cases body with
  | none =>
    rw [Statement.checkOptional] at h
    cases h
    rfl
  | some body =>
    rw [Statement.checkOptional] at h
    obtain ⟨env₁, hb, h⟩ := Check.ok_of_bind h
    cases h
    rw [Statement.optionalCore] at hc
    exact Env.outer_leave.trans (Statement.checkAll_outer body hb hc ht)

theorem Statement.checkHandlers_outer (handlers : List (Handler Statement)) {env env' : Env} {k : Nat}
    (h : Statement.checkHandlers env handlers = .ok env') (hc : Statement.handlersCore env handlers = true)
    (ht : (env.outer (k + 1)).IsTyped) : env'.outer (k + 1) = env.outer (k + 1) := by
  cases handlers with
  | nil =>
    rw [Statement.checkHandlers] at h
    cases h
    rfl
  | cons handler rest =>
    obtain ⟨name, line, body⟩ := handler
    rw [Statement.checkHandlers] at h
    obtain ⟨env₁, hb, h⟩ := Check.ok_of_bind h
    rw [Statement.handlersCore, hb, Bool.and_eq_true] at hc
    have hdefine : (env.enter.define errorVariable Ty.literal).outer (k + 1 + 1) = env.outer (k + 1) := by
      rw [Env.outer_define, Env.outer_enter]
    have h₁ : env₁.leave.outer (k + 1) = env.outer (k + 1) := by
      rw [Env.outer_leave, Statement.checkAll_outer body hb hc.1 (hdefine ▸ ht), hdefine]
    rw [← h₁] at ht ⊢
    exact Statement.checkHandlers_outer rest h hc.2 ht

end

namespace Env

variable {env env' : Env}

theorem IsTyped.outer (h : env.IsTyped) (k : Nat) : (env.outer k).IsTyped := fun s hs =>
  h s (List.mem_of_mem_drop hs)

/-- A block leaves what is known around it as it is. -/
theorem leave_of_checkAll {body : List Statement} (h : Statement.checkAll env body = .ok env')
    (hc : Statement.areCore env body = true) (ht : env.leave.IsTyped) : env'.leave = env.leave :=
  Statement.checkAll_outer body h hc ht

end Env
end Crunch
