import Crunch.Proofs.Execution

/-!
# Crunch.Proofs.Outline

What a check changes of what is known.

* `Env.Like`: two checks know the same names, whatever the types, and the same native types.
* `Statement.loads`: the native types that a statement imports at any depth.
* `Statement.check_like`: a statement leaves the names around it alone, and the imports too if it only
  imports what has been imported before.
-/

namespace Crunch

/-- The same names, scope by scope, and the same native types. Imports count if `I` holds. -/
structure Env.Like (I : Prop) (env env' : Env) : Prop where
  names : (env.scopes.map fun _ => ()) = env'.scopes.map fun _ => ()
  interfaces : env.interfaces = env'.interfaces
  imports : I → env.imports = env'.imports

namespace Env.Like

variable {I : Prop} {env env' env'' : Env} {name : String} {t : Ty}

theorem refl (env : Env) : Env.Like I env env := ⟨rfl, rfl, fun _ => rfl⟩

theorem symm (h : Env.Like I env env') : Env.Like I env' env :=
  ⟨h.names.symm, h.interfaces.symm, fun hi => (h.imports hi).symm⟩

theorem trans (h : Env.Like I env env') (h' : Env.Like I env' env'') : Env.Like I env env'' :=
  ⟨h.names.trans h'.names, h.interfaces.trans h'.interfaces, fun hi => (h.imports hi).trans (h'.imports hi)⟩

theorem leave (h : Env.Like I env env') : Env.Like I env.leave env'.leave where
  names := by
    have := congrArg (List.drop 1) h.names
    simpa only [Scopes.map, Env.leave, List.map_drop] using this
  interfaces := h.interfaces
  imports := h.imports

/-- A variable that takes a type keeps its name. -/
theorem adopt : Env.Like I (env.adopt name t) env := by
  unfold Env.adopt
  split
  · rename_i slot hs
    refine ⟨?_, rfl, fun _ => rfl⟩
    have hf : (env.scopes.map fun _ => ()).find? name = some () := by rw [Scopes.find?_map, hs, Option.map_some]
    rw [Scopes.map_update, Scopes.update_find? hf]
  · exact refl env

theorem assign {line : Nat} (h : env.assign line name t = .ok env') : Env.Like I env' env := by
  obtain ⟨-, rfl⟩ := Env.assign_ok h
  exact adopt

theorem importType {line : Nat} (h : env.importType line name = .ok env') (hn : I → name ∈ env.imports) :
    Env.Like I env' env := by
  obtain ⟨-, rfl⟩ := Env.importType_ok h
  refine ⟨rfl, rfl, fun hi => ?_⟩
  simp only [List.contains_iff_mem.mpr (hn hi), if_true]

end Env.Like

/-! ## Imports -/

mutual

/-- The native types that a statement imports. -/
def Statement.loads : Statement → List String
  | .choice _ branches otherwise => Statement.loadsBranches branches ++ Statement.loadsOptional otherwise
  | .loop _ _ body | .each _ _ _ body => Statement.loadsAll body
  | .attempt _ body handlers => Statement.loadsAll body ++ Statement.loadsHandlers handlers
  | .load _ name => [name]
  | .expression _ _ | .declare _ _ _ | .assign _ _ _ | .compound _ _ _ _ | .raise _ _ => []

def Statement.loadsAll : List Statement → List String
  | [] => []
  | st :: rest => st.loads ++ Statement.loadsAll rest

def Statement.loadsBranches : List (Expr × List Statement) → List String
  | [] => []
  | (_, body) :: rest => Statement.loadsAll body ++ Statement.loadsBranches rest

def Statement.loadsOptional : Option (List Statement) → List String
  | none => []
  | some body => Statement.loadsAll body

def Statement.loadsHandlers : List (Handler Statement) → List String
  | [] => []
  | ⟨_, _, body⟩ :: rest => Statement.loadsAll body ++ Statement.loadsHandlers rest

end

/-- All names of a list are imported, if imports count. -/
def Env.Imports (I : Prop) (env : Env) (names : List String) : Prop := I → ∀ n ∈ names, n ∈ env.imports

namespace Env.Imports

variable {I : Prop} {env env' : Env} {names more : List String}

theorem left (h : env.Imports I (names ++ more)) : env.Imports I names := fun hi n hn =>
  h hi n (List.mem_append_left _ hn)

theorem right (h : env.Imports I (names ++ more)) : env.Imports I more := fun hi n hn =>
  h hi n (List.mem_append_right _ hn)

theorem congr (h : env.Imports I names) (hi : I → env'.imports = env.imports) : env'.Imports I names := fun ht n hn => by
  rw [hi ht]
  exact h ht n hn

end Env.Imports

/-! ## Statements -/

section Statements

variable {I : Prop} {env env' : Env} {line : Nat}

/-- The scope of a variable and the block in it are left as they were entered. -/
theorem Env.Like.of_block {name : String} {t : Ty} (h : Env.Like I env'.leave (env.enter.define name t).leave) :
    Env.Like I env'.leave env := by
  rwa [Env.leave_define] at h

mutual

/-- A statement leaves the scopes around it as they are. -/
theorem Statement.check_like (st : Statement) {env env' : Env} (h : st.check env = .ok env')
    (hi : env.Imports I st.loads) : Env.Like I env'.leave env.leave := by
  cases st with
  | expression line e =>
    rw [Statement.check] at h
    obtain ⟨t, -, rfl⟩ := Check.ok_of_map h
    exact .refl _
  | declare line name e =>
    rw [Statement.check] at h
    obtain ⟨t, -, h⟩ := Check.ok_of_bind h
    cases h
    rw [Env.leave_define]
    exact .refl _
  | assign line name e =>
    rw [Statement.check] at h
    obtain ⟨t, -, h⟩ := Check.ok_of_bind h
    exact (Env.Like.assign h).leave
  | compound line name op e =>
    obtain ⟨-, r, h⟩ := Statement.compound_ok h
    exact (Env.Like.assign h).leave
  | choice line branches otherwise =>
    rw [Statement.loads] at hi
    obtain ⟨env₁, hb, h⟩ := Statement.choice_ok h
    have h₁ := Statement.checkBranches_like branches hb hi.left
    exact ((Statement.checkOptional_like otherwise h (hi.right.congr h₁.imports)).trans h₁).leave
  | loop line condition body =>
    rw [Statement.loads] at hi
    obtain ⟨-, env₁, hb, rfl⟩ := Statement.loop_ok h
    exact (Statement.checkAll_like body hb hi).leave
  | each line name source body =>
    rw [Statement.loads] at hi
    obtain ⟨t, -, env₁, hb, rfl⟩ := Statement.each_ok h
    have h₁ : Env.Like I env₁.leave (env.enter.define name t) := Statement.checkAll_like body hb hi
    exact (Env.Like.of_block h₁.leave).leave
  | raise line name =>
    rw [Statement.check] at h
    cases h
    exact .refl _
  | attempt line body handlers =>
    rw [Statement.loads] at hi
    obtain ⟨env₁, hb, h⟩ := Statement.attempt_ok h
    have h₁ : Env.Like I env₁.leave env := Statement.checkAll_like body hb hi.left
    exact ((Statement.checkHandlers_like handlers h (hi.right.congr h₁.imports)).trans h₁).leave
  | load line name =>
    rw [Statement.check] at h
    rw [Statement.loads] at hi
    exact (Env.Like.importType h fun ht => hi ht name (List.mem_singleton.mpr rfl)).leave

theorem Statement.checkAll_like (sts : List Statement) {env env' : Env} (h : Statement.checkAll env sts = .ok env')
    (hi : env.Imports I (Statement.loadsAll sts)) : Env.Like I env'.leave env.leave := by
  cases sts with
  | nil =>
    rw [Statement.checkAll] at h
    cases h
    exact .refl _
  | cons st rest =>
    rw [Statement.loadsAll] at hi
    obtain ⟨env₁, hst, h⟩ := Statement.cons_ok h
    have h₁ := Statement.check_like st hst hi.left
    exact (Statement.checkAll_like rest h (hi.right.congr h₁.imports)).trans h₁

theorem Statement.checkBranches_like (branches : List (Expr × List Statement)) {env env' : Env} {line : Nat}
    (h : Statement.checkBranches line env branches = .ok env') (hi : env.Imports I (Statement.loadsBranches branches)) :
    Env.Like I env' env := by
  cases branches with
  | nil =>
    rw [Statement.checkBranches] at h
    cases h
    exact .refl _
  | cons branch rest =>
    obtain ⟨condition, body⟩ := branch
    rw [Statement.loadsBranches] at hi
    obtain ⟨-, env₁, hb, h⟩ := Statement.branch_ok h
    have h₁ : Env.Like I env₁.leave env := Statement.checkAll_like body hb hi.left
    exact (Statement.checkBranches_like rest h (hi.right.congr h₁.imports)).trans h₁

theorem Statement.checkOptional_like (body : Option (List Statement)) {env env' : Env}
    (h : Statement.checkOptional env body = .ok env') (hi : env.Imports I (Statement.loadsOptional body)) :
    Env.Like I env' env := by
  cases body with
  | none =>
    rw [Statement.checkOptional] at h
    cases h
    exact .refl _
  | some body =>
    rw [Statement.loadsOptional] at hi
    obtain ⟨env₁, hb, rfl⟩ := Statement.last_ok h
    exact Statement.checkAll_like body hb hi

theorem Statement.checkHandlers_like (handlers : List (Handler Statement)) {env env' : Env}
    (h : Statement.checkHandlers env handlers = .ok env') (hi : env.Imports I (Statement.loadsHandlers handlers)) :
    Env.Like I env' env := by
  cases handlers with
  | nil =>
    rw [Statement.checkHandlers] at h
    cases h
    exact .refl _
  | cons handler rest =>
    rw [Statement.loadsHandlers] at hi
    obtain ⟨env₁, hb, h⟩ := Statement.handler_ok h
    have h₁ : Env.Like I env₁.leave env := .of_block (Statement.checkAll_like handler.body hb hi.left)
    exact (Statement.checkHandlers_like rest h (hi.right.congr h₁.imports)).trans h₁

end

end Statements

end Crunch
