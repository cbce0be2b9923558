import Crunch.Proofs.Reading

/-!
# Crunch.Proofs.Shortcuts

Shorter ways of evaluation that give what the longer ones do.

* `Expr.Lazily`: what `and` and `or` make of two expressions, by the value of the left one.
* `Expr.logic_is_lazy`: a logical operator gives what the strict one gives on the two values, or it skips
  the right expression because every value there would give the same.
* `Statement.compound_is_assignment`: a compound assignment is an assignment of the operation.
-/

namespace Crunch

open Run

/-! ## Truth values -/

/-- Booleans, and the nulls that stand for one. -/
def Value.IsTruth : Value → Prop
  | .boolean _ => True
  | .null t => t.isUntyped = true ∨ t.isScalar .boolean = true
  | _ => False

/-- `false` decides `and`, and `true` decides `or`. -/
inductive Decides : BinaryOp → Bool → Prop where
  | and : Decides .and false
  | or : Decides .or true

theorem Decides.isLogic {op : BinaryOp} {d : Bool} (h : Decides op d) : op = .and ∨ op = .or := by
  cases h
  · exact .inl rfl
  · exact .inr rfl

namespace Operation

variable {op : BinaryOp} {d : Bool} {v : Value}

theorem truth_of_isTruth (op : BinaryOp) (h : v.IsTruth) :
    ∃ x, truth op v = .ok x ∧ ∀ b, x = some b → v = .boolean b := by
  cases v with
  | boolean b =>
    refine ⟨some b, rfl, fun c hc => ?_⟩
    cases hc
    rfl
  | null t =>
    have ht : (t.isUntyped || t.isScalar .boolean) = true := by simpa [Value.IsTruth] using h
    exact ⟨none, by rw [truth, if_pos ht], nofun⟩
  | _ => exact h.elim

theorem truth_of_not_isTruth (op : BinaryOp) (h : ¬v.IsTruth) :
    truth op v = .error (.undefined (.notLogical op v.type)) := by
  cases v with
  | boolean b => exact absurd trivial h
  | null t =>
    have ht : ¬(t.isUntyped || t.isScalar .boolean) = true := by simpa [Value.IsTruth] using h
    rw [truth, if_neg ht]
    rfl
  | _ => rfl

theorem decided_of_decides (h : Decides op d) : decided op (some d) = some d := by
  cases h <;> rfl

theorem decided_of_ne (h : Decides op d) {x : Option Bool} (hx : x ≠ some d) : decided op x = none := by
  cases h <;> cases x with
  | none => rfl
  | some b => cases b <;> first | rfl | exact absurd rfl hx

theorem logical_of_truth {a b : Value} {x : Option Bool} (ha : truth op a = .ok x) :
    logical op a b = (truth op b).map fun y => ofTruth (connective op x y) := by
  rw [logical, ha]
  cases truth op b <;> rfl

/-- An operand that decides gives the result with any other operand. -/
theorem logical_of_decides (h : Decides op d) (hv : v.IsTruth) : logical op (.boolean d) v = .ok (.boolean d) := by
  obtain ⟨x, hx, -⟩ := truth_of_isTruth op hv
  have hconnective : connective op (some d) x = some d := by
    cases h <;> rfl
  rw [logical_of_truth (a := .boolean d) rfl, hx, Except.map, hconnective]
  rfl

end Operation

/-! ## Variables that stay -/

/-- A variable is still there. -/
def Slot.Stays (before after : Option Slot) : Prop := before.isSome = true → after.isSome = true

theorem frame_stays : Frame (Scopes.Related Slot.Stays) :=
  Frame.related (fun _ => id) (fun _ _ _ h h' => h' ∘ h) fun _ _ => rfl

namespace Expr

variable {held : List Value} {l r : Expr} {s t u : State} {o p : Operand}

/-- An operand can still be read after another expression has been evaluated. -/
theorem reads_after (ho : Found o t) (hr : r.operand held t = .ok p u) : ∃ a, Reads o a u := by
  cases o with
  | temporary v => exact ⟨v, reads_temporary v u⟩
  | named name =>
    obtain ⟨slot, hf⟩ := ho name rfl
    have hmoves : Run.Moves (Scopes.Related Slot.Stays fun _ => False) (r.operand held) :=
      frame_stays.moves (r.traces_operand held fun _ _ => trivial)
    have hrelated := hmoves t
    rw [after_of_ok hr] at hrelated
    obtain ⟨slot', hf'⟩ := hrelated.find? (fun a b h => h rfl) hf
    exact ⟨slot'.value, reads_named hf'⟩

/-! ## Logic on expressions -/

/-- What `l op r` gives in a state `s`, if `d` on the left decides `op`. An error of an expression is the
error of the whole. -/
structure Lazily (held : List Value) (line : Nat) (op : BinaryOp) (d : Bool) (l r : Expr) (s : State) : Prop where
  left_fails (e : Halt Fault) (t : State) : l.eval held s = .error e t →
    (binary line op l r).eval held s = .error e t
  /-- The right expression is skipped, and no truth value there could give anything else. -/
  skips (t : State) : l.eval held s = .ok (.boolean d) t →
    (binary line op l r).eval held s = .ok (.boolean d) t ∧
      ∀ b : Value, b.IsTruth → Operation.logical op (.boolean d) b = .ok (.boolean d)
  refuses (a : Value) (t : State) : l.eval held s = .ok a t → ¬a.IsTruth →
    (binary line op l r).eval held s = .error (.error ⟨line, .undefined (.notLogical op a.type)⟩) t
  right_fails (a : Value) (t : State) (e : Halt Fault) (u : State) : l.eval held s = .ok a t → a.IsTruth →
    a ≠ .boolean d → r.eval held t = .error e u → (binary line op l r).eval held s = .error e u
  /-- The outcome is that on the two values. It counts as allocated if both expressions are variables. -/
  agrees (a : Value) (t : State) (b : Value) (u : State) : l.eval held s = .ok a t → a.IsTruth →
    a ≠ .boolean d → r.eval held t = .ok b u →
    ∃ o p, l.operand held s = .ok o t ∧ r.operand held t = .ok p u ∧
      match Operation.logical op a b with
      | .ok c => (binary line op l r).eval held s =
          .ok c { u with allocations := u.allocations + if o.isNamed && p.isNamed then 1 else 0 }
      | .error x => (binary line op l r).eval held s = .error (.error ⟨line, x⟩) u

theorem eval_logic {line : Nat} {op : BinaryOp} (h : op = .and ∨ op = .or) :
    (binary line op l r).eval held = (do let o ← l.operand held; shortCircuit line op o (r.operand held)) := by
  simp only [eval, operand, if_pos h, bind_assoc, pure_bind, Operand.read, bind_pure]

end Expr

namespace Run

variable {line : Nat} {op : BinaryOp} {o : Operand} {right : Run Operand} {a : Value} {t : State}

theorem shortCircuit_refused {c : Fault.Cause} (ha : Expr.Reads o a t) (h : Operation.truth op a = .error c) :
    shortCircuit line op o right t = .error (.error ⟨line, c⟩) t := by
  rw [shortCircuit, bind_of_ok (ha line), h]
  rfl

theorem shortCircuit_decided {x : Option Bool} {d : Bool} (ha : Expr.Reads o a t) (h : Operation.truth op a = .ok x)
    (hd : Operation.decided op x = some d) : shortCircuit line op o right t = .ok (.boolean d) t := by
  have hlift : lift line (Except.ok x) t = .ok x t := rfl
  rw [shortCircuit, bind_of_ok (ha line), h, bind_of_ok hlift]
  simp only [hd]
  rfl

theorem shortCircuit_undecided {x : Option Bool} (ha : Expr.Reads o a t) (h : Operation.truth op a = .ok x)
    (hd : Operation.decided op x = none) :
    shortCircuit line op o right t = (do
      let p ← right
      let _ ← o.read line
      let b ← p.read line
      let y ← lift line (Operation.truth op b)
      counted [o, p] (Operation.ofTruth (Operation.connective op x y))) t := by
  have hlift : lift line (Except.ok x) t = .ok x t := rfl
  rw [shortCircuit, bind_of_ok (ha line), h, bind_of_ok hlift]
  simp only [hd]

theorem counted_pair {o p : Operand} {v : Value} {u : State} :
    counted [o, p] v u = .ok v { u with allocations := u.allocations + if o.isNamed && p.isNamed then 1 else 0 } := by
  cases o <;> cases p <;> rfl

end Run

namespace Expr

variable {held : List Value} {line : Nat} {op : BinaryOp} {d : Bool} {l r : Expr} {s t : State} {o : Operand}
  {a : Value}

/-- A value of an expression is what its operand is read as. -/
theorem operand_of_eval (h : l.eval held s = .ok a t) :
    ∃ o, l.operand held s = .ok o t ∧ Found o t ∧ Reads o a t := by
  cases hl : l.operand held s with
  | error e u =>
    rw [eval, bind_of_error hl] at h
    cases h
  | ok o u =>
    obtain ⟨b, hb⟩ := reads_of_operand hl
    rw [eval, bind_of_ok hl, hb l.line] at h
    cases h
    exact ⟨o, rfl, (ends_of_ok hl).mp (found_operand held l s), hb⟩

theorem operand_of_eval_error {e : Halt Fault} (h : l.eval held s = .error e t) : l.operand held s = .error e t := by
  cases hl : l.operand held s with
  | error e' u =>
    rw [eval, bind_of_error hl] at h
    cases h
    rfl
  | ok o u =>
    obtain ⟨b, hb⟩ := reads_of_operand hl
    rw [eval, bind_of_ok hl, hb l.line] at h
    cases h

theorem eval_of_left (hop : Decides op d) (hl : l.operand held s = .ok o t) :
    (binary line op l r).eval held s = shortCircuit line op o (r.operand held) t := by
  rw [eval_logic hop.isLogic, bind_of_ok hl]

/-- A left operand that does not decide. -/
theorem eval_undecided (hop : Decides op d) (hl : l.operand held s = .ok o t) (ha : Reads o a t)
    (htruth : a.IsTruth) (hne : a ≠ .boolean d) :
    ∃ x, Operation.truth op a = .ok x ∧ (binary line op l r).eval held s = (do
      let p ← r.operand held
      let _ ← o.read line
      let b ← p.read line
      let y ← lift line (Operation.truth op b)
      counted [o, p] (Operation.ofTruth (Operation.connective op x y))) t := by
  obtain ⟨x, hx, hb⟩ := Operation.truth_of_isTruth op htruth
  have hundecided := Operation.decided_of_ne hop fun he => hne (hb d he)
  exact ⟨x, hx, (eval_of_left hop hl).trans (shortCircuit_undecided ha hx hundecided)⟩

theorem lazily (held : List Value) (line : Nat) (hop : Decides op d) (l r : Expr) (s : State) :
    Lazily held line op d l r s where
  left_fails e t h := by
    rw [eval_logic hop.isLogic, bind_of_error (operand_of_eval_error h)]
  skips t h := by
    obtain ⟨o, hl, -, ha⟩ := operand_of_eval h
    refine ⟨?_, fun b hb => Operation.logical_of_decides hop hb⟩
    rw [eval_of_left hop hl, shortCircuit_decided ha rfl (Operation.decided_of_decides hop)]
  refuses a t h hnot := by
    obtain ⟨o, hl, -, ha⟩ := operand_of_eval h
    rw [eval_of_left hop hl, shortCircuit_refused ha (Operation.truth_of_not_isTruth op hnot)]
  right_fails a t e u h htruth hne herror := by
    obtain ⟨o, hl, -, ha⟩ := operand_of_eval h
    obtain ⟨x, -, hrun⟩ := eval_undecided hop hl ha htruth hne
    rw [hrun, bind_of_error (operand_of_eval_error herror)]
  agrees a t b u h htruth hne hb := by
    obtain ⟨o, hl, hfound, ha⟩ := operand_of_eval h
    obtain ⟨p, hp, -, hread⟩ := operand_of_eval hb
    obtain ⟨x, hx, hrun⟩ := eval_undecided hop hl ha htruth hne
    -- the left operand is read once more, whatever it has become
    obtain ⟨a', ha'⟩ := reads_after hfound hp
    rw [bind_of_ok hp, bind_of_ok (ha' line), bind_of_ok (hread line)] at hrun
    refine ⟨o, p, hl, hp, ?_⟩
    rw [Operation.logical_of_truth hx]
    cases hy : Operation.truth op b with
    | error c =>
      rw [hrun, hy]
      rfl
    | ok y =>
      rw [hrun, hy]
      exact counted_pair

/-- Logic on expressions agrees with logic on values, in every state. -/
theorem logic_is_lazy (held : List Value) (line : Nat) (l r : Expr) (s : State) :
    Lazily held line .and false l r s ∧ Lazily held line .or true l r s :=
  ⟨lazily held line .and l r s, lazily held line .or l r s⟩

/-! ## Compound assignments -/

theorem eval_strict (h : ¬(op = .and ∨ op = .or)) :
    (binary line op l r).eval held =
      (do let o ← l.operand held; let p ← r.operand (o.held ++ held); combine line op o p) := by
  simp only [eval, operand, if_neg h, bind_assoc, pure_bind, Operand.read, bind_pure]

end Expr

/-- A compound assignment to a variable does what the assignment of the operation does: it gives the same
outcome and leaves the same state. -/
theorem Statement.compound_is_assignment (held : List Value) (passes line : Nat) (name : String) (op : BinaryOp)
    (e : Expr) (s : State) (slot : Slot) (hop : op.isCompound = true) (hs : s.scopes.find? name = some slot) :
    (Statement.compound line name op e).exec held passes s =
      (Statement.assign line name (.binary line op (.var line name) e)).exec held passes s := by
  have hlogic : ¬(op = .and ∨ op = .or) := by
    rintro (rfl | rfl) <;> cases hop
  have hvar : (Expr.var line name).operand held s = .ok (.named name) s := by
    rw [Expr.operand, bind_of_ok (lookup_of_find hs)]
    rfl
  rw [Statement.exec, Statement.exec, Expr.eval_strict hlogic]
  simp only [bind_assoc]
  rw [bind_of_ok hvar]
  rfl

/-- A call on the right appends to the variable that is assigned to. -/
theorem Statement.compound_is_assignment_late :
    let e : Expr := .member 1 (.var 1 "x") (.named "append") [.constant 1 (.literal "b")]
    let s : State := (State.fresh .bundled ⟨[], 0, []⟩ [] ⟨[], []⟩).declare "x" (.literal "a")
    (Statement.compound 1 "x" .add e).exec [] 0 s =
        (Statement.assign 1 "x" (.binary 1 .add (.var 1 "x") e)).exec [] 0 s ∧
      ∃ t, (Statement.compound 1 "x" .add e).exec [] 0 s = .ok none t ∧
        t.scopes.find? "x" = some ⟨Ty.literal, .literal "abab"⟩ ∧ t.allocations = 1 :=
  ⟨compound_is_assignment [] 0 1 "x" .add _ _ ⟨Ty.literal, .literal "a"⟩ rfl rfl, _, rfl, rfl, rfl⟩

end Crunch
