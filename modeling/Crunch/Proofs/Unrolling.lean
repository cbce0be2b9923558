import Crunch.Pattern.Bundled
import Crunch.Proofs.Trail
import Mathlib.Algebra.Group.Int.Defs
import Mathlib.Data.List.Sort

/-!
# Crunch.Proofs.Unrolling

A `for` loop as the sequence of its passes.

* `Run.mem_range`: the integers of a range are those between its bounds, up to the last integer there is.
* `Source.Gives`, `Source.values_iff`: what a loop runs over, from one evaluation of its source.
* `Run.unrolled`: one pass after the other over values that are given.
* `Run.eachValue_eq_unrolled`: while the flag for the end is clear, the passes of a loop are no others.
  No body sets it, as `Statement.keepsFlag_execAll` tells.
* `Statement.loop_unrolls`: a loop is that sequence, over values that do not depend on its body.
-/

namespace Crunch

open Run

/-! ## The integers of a range -/

namespace Run

theorem toInt_add_one {i : Int64} (h : i.toInt + 1 < 2 ^ 63) : (i + 1).toInt = i.toInt + 1 := by
  have hlow := i.le_toInt
  rw [Int64.toInt_add, Int64.toInt_one]
  exact Int.bmod_eq_of_le (by omega) (by omega)

variable {n : Nat} {i j : Int64}

-- The list may end at the last integer of all, so the bound is that of the sum and not of a further integer.
theorem mem_ascending (h : i.toInt + n ≤ 2 ^ 63) : j ∈ ascending n i ↔ i.toInt ≤ j.toInt ∧ j.toInt < i.toInt + n := by
  induction n generalizing i with
  | zero =>
    simp only [ascending, List.not_mem_nil, false_iff]
    omega
  | succ n ih =>
    have hj : j = i ↔ j.toInt = i.toInt := Int64.toInt_inj.symm
    rw [ascending, List.mem_cons, hj]
    cases n with
    | zero =>
      simp only [ascending, List.not_mem_nil, or_false]
      omega
    | succ n =>
      have hnext := toInt_add_one (i := i) (by omega)
      rw [ih (by omega), hnext]
      omega

theorem pairwise_ascending (h : i.toInt + n ≤ 2 ^ 63) : (ascending n i).Pairwise (· < ·) := by
  induction n generalizing i with
  | zero => exact .nil
  | succ n ih =>
    cases n with
    | zero => exact List.pairwise_singleton _ i
    | succ n =>
      have hnext := toInt_add_one (i := i) (by omega)
      have hrest : (i + 1).toInt + (n + 1 : Nat) ≤ 2 ^ 63 := by omega
      refine .cons (fun j hj => ?_) (ih hrest)
      have hle := ((mem_ascending hrest).mp hj).1
      rw [Int64.lt_iff_toInt_lt]
      omega

variable {a b : Int64} {inclusive : Bool}

theorem add_rangeSize_le : a.toInt + rangeSize a b inclusive ≤ 2 ^ 63 := by
  have ha := a.toInt_lt
  have hb := b.toInt_lt
  rw [rangeSize]
  split <;> omega

theorem mem_range : j ∈ ascending (rangeSize a b inclusive) a ↔ a ≤ j ∧ if inclusive then j ≤ b else j < b := by
  rw [mem_ascending add_rangeSize_le, rangeSize, Int64.le_iff_toInt_le]
  split
  · rw [Int64.le_iff_toInt_le]
    omega
  · rw [Int64.lt_iff_toInt_lt]
    omega

/-- The last two integers. -/
example : ascending (rangeSize 9223372036854775806 9223372036854775807 true) 9223372036854775806 =
    [9223372036854775806, 9223372036854775807] := by decide

end Run

/-! ## Where the loop gets its values from -/

variable {held : List Value} {s t u : State}

/-- The source gives these values, and leaves the state `t`. A range gives the integers between its
bounds, in ascending order. -/
inductive Source.Gives (held : List Value) (s : State) : Source → List Value → State → Prop
  | elements {e : Expr} {element : Ty} {vs : List Value} {t : State} :
      e.eval held s = .ok (.collection element vs) t → Gives held s (.elements e) vs t
  | range {start bound : Expr} {inclusive : Bool} {a b : Int64} {is : List Int64} {t u : State} :
      start.eval held s = .ok (.integer a) t → bound.eval held t = .ok (.integer b) u → is.Pairwise (· < ·) →
      (∀ i, i ∈ is ↔ a ≤ i ∧ if inclusive then i ≤ b else i < b) →
      Gives held s (.range start bound inclusive) (is.map .integer) u

/-- The values of a source. -/
def Source.values (held : List Value) (line : Nat) : Source → Run (List Value)
  | .elements e => do
    let c ← lift line (Collection.ofValue? (← e.eval held))
    return c.items
  | .range start bound inclusive => do
    let a ← lift line (← start.eval held).integer?
    let b ← lift line (← bound.eval held).integer?
    return (ascending (rangeSize a b inclusive) a).map .integer

/-- Of the values still to come, those that stay in use. -/
def Source.pending : Source → List Value → List Value
  | .elements _, rest => rest
  | .range _ _ _, _ => []

/-- A source gives what is evaluated, and nothing else. -/
theorem Source.values_iff {line : Nat} {source : Source} {vs : List Value} :
    source.values held line s = .ok vs t ↔ source.Gives held s vs t := by
  constructor
  · intro h
    cases source with
    | elements e =>
      obtain ⟨v, s₁, he, h⟩ := ok_of_bind h
      obtain ⟨c, s₂, hc, h⟩ := ok_of_bind h
      cases v with
      | collection element items =>
        cases hc
        cases h
        exact .elements he
      | _ => cases hc
    | range start bound inclusive =>
      obtain ⟨v, s₁, ha, h⟩ := ok_of_bind h
      obtain ⟨a, s₂, hv, h⟩ := ok_of_bind h
      obtain ⟨w, s₃, hb, h⟩ := ok_of_bind h
      obtain ⟨b, s₄, hw, h⟩ := ok_of_bind h
      cases v with
      | integer a' =>
        cases w with
        | integer b' =>
          cases hv
          cases hw
          cases h
          exact .range ha hb (pairwise_ascending add_rangeSize_le) fun _ => mem_range
        | _ => cases hw
      | _ => cases hv
  · intro h
    cases h with
    | elements he =>
      rw [values, bind_of_ok he]
      rfl
    | @range start bound inclusive a b is t u ha hb hsorted hmem =>
      have his : is = ascending (rangeSize a b inclusive) a :=
        hsorted.eq_of_mem_iff (pairwise_ascending add_rangeSize_le) fun i => (hmem i).trans mem_range.symm
      have hlift : lift line (Value.integer a).integer? t = .ok a t := rfl
      rw [values, bind_of_ok ha, bind_of_ok hlift, bind_of_ok hb, his]
      rfl

/-! ## Passes -/

/-- One pass after the other: each has a scope in which the variable is defined, around the scope of
the body. The first failure is that of the sequence. -/
def Run.unrolled (name : String) (body : List Value → Run Unit) : List Value → Run Unit
  | [] => pure ()
  | v :: rest => do
    nested do
      define name v
      nested (body rest)
    unrolled name body rest

namespace Run

variable {line : Nat} {name : String}

/-- A computation that leaves the flag for the end as it is, however it ends. -/
def KeepsFlag {α : Type} (x : Run α) : Prop := ∀ s : State, (x.after s).stopped = s.stopped

theorem Traces.keepsFlag {α : Type} {D : String → Prop} {P : α → Prop} {x : Run α} (hx : Traces .any D x P) :
    KeepsFlag x := by
  intro s
  rw [← ends_after (P := fun t => t.stopped = s.stopped)]
  exact (hx s (Licence.allNative_any s)).mono (fun _ _ h => h.1.stopped) fun _ _ h => h.stopped

theorem pass_eq {v : Value} {body : Run Unit} (hs : s.stopped = false) :
    pass line name v body s = nested (do define name v; nested body) s := by
  have hcheck : checkStop line s = .ok () s := by
    rw [checkStop_eq, hs]
    rfl
  rw [pass, bind_of_ok hcheck]

theorem KeepsFlag.turn {body : Run Unit} (h : KeepsFlag body) (name : String) (v : Value) :
    KeepsFlag (nested (do define name v; nested body)) := by
  intro s
  rw [← ends_after (P := fun t => t.stopped = s.stopped), ends_nested, ends_bind, ends_define, ends_nested, ends_after]
  exact h _

/-- Nothing that the bodies do is seen where the flag is looked at. -/
theorem eachValue_eq_unrolled {body : List Value → Run Unit} (hbody : ∀ rest, KeepsFlag (body rest))
    (vs : List Value) (hs : s.stopped = false) : eachValue line name body vs s = unrolled name body vs s := by
  induction vs generalizing s with
  | nil => rfl
  | cons v rest ih =>
    rw [eachValue, unrolled]
    cases hturn : nested (do define name v; nested (body rest)) s with
    | ok u t =>
      have hflag := (hbody rest).turn name v s
      rw [after_of_ok hturn, hs] at hflag
      rw [bind_of_ok ((pass_eq hs).trans hturn), bind_of_ok hturn]
      exact ih hflag
    | error h t => rw [bind_of_error ((pass_eq hs).trans hturn), bind_of_error hturn]

end Run

/-! ## Loops -/

theorem Source.keepsFlag_values (held : List Value) (line : Nat) (source : Source) :
    KeepsFlag (source.values held line) := by
  have heval : ∀ e : Expr, Traces .any (fun _ => False) (e.eval held) fun _ => True := fun e =>
    e.traces_eval held fun _ _ => trivial
  cases source with
  | elements e => exact ((heval e).bind fun v _ => quiet_lift.andThen fun c => traces_done).keepsFlag
  | range start bound inclusive =>
    have hbound : ∀ a : Int64, Traces .any (fun _ => False) (do
        let b ← lift line (← bound.eval held).integer?
        return (ascending (rangeSize a b inclusive) a).map Value.integer) fun _ => True := fun a =>
      (heval bound).bind fun w _ => quiet_lift.andThen fun b => traces_done
    exact ((heval start).bind fun v _ => quiet_lift.andThen hbound).keepsFlag

namespace Statement

variable {passes line : Nat} {name : String} {source : Source} {body : List Statement}

theorem keepsFlag_execAll (held : List Value) (passes : Nat) (body : List Statement) :
    KeepsFlag (Statement.execAll held passes body) :=
  (Statement.traces_execAll held passes body fun _ _ => trivial).keepsFlag

/-- A loop evaluates its source once, and runs over what it gave. -/
theorem exec_each : (Statement.each line name source body).exec held passes = (do
    let vs ← source.values held line
    eachValue line name (fun rest => Statement.execAll (source.pending rest ++ held) passes body) vs
    return none) := by
  cases source with
  | elements e =>
    simp only [Statement.exec, Source.values, Source.pending, bind_assoc, pure_bind]
  | range start bound inclusive =>
    simp only [Statement.exec, Source.values, Source.pending, bind_assoc, pure_bind, eachInteger_eq_eachValue,
      List.nil_append]

/-- A loop over values that are given. What is still to come stays in use during a pass, as far as the
source holds it. -/
def unrolled (held : List Value) (passes : Nat) (name : String) (source : Source) (body : List Statement)
    (vs : List Value) : Run (Option Value) := do
  Run.unrolled name (fun rest => Statement.execAll (source.pending rest ++ held) passes body) vs
  return none

/-- With the flag for the end clear, a loop is the sequence of its passes over values that do not depend
on its body: the body may change all that they come from. If there are none, no body is run. -/
theorem loop_unrolls (hs : s.stopped = false) (held : List Value) (passes line : Nat) (name : String)
    (source : Source) :
    (∃ vs t, source.Gives held s vs t ∧ ∀ body,
      (Statement.each line name source body).exec held passes s = unrolled held passes name source body vs t) ∨
    ∃ h t, (∀ vs u, ¬source.Gives held s vs u) ∧
      ∀ body, (Statement.each line name source body).exec held passes s = .error h t := by
  cases hvs : source.values held line s with
  | ok vs t =>
    refine .inl ⟨vs, t, Source.values_iff.mp hvs, fun body => ?_⟩
    have hflag := Source.keepsFlag_values held line source s
    rw [after_of_ok hvs, hs] at hflag
    rw [exec_each, bind_of_ok hvs]
    refine bind_eq_of_eq ?_
    exact eachValue_eq_unrolled (fun rest => keepsFlag_execAll _ passes body) vs hflag
  | error h t =>
    refine .inr ⟨h, t, fun vs u hgives => ?_, fun body => ?_⟩
    · rw [Source.values_iff.mpr hgives] at hvs
      cases hvs
    · rw [exec_each, bind_of_error hvs]

/-- The body overwrites the variable of the loop and the collection that the loop runs over. -/
theorem loop_unrolls_overwritten :
    let s : State :=
      (State.fresh .bundled ⟨[], 0, []⟩ [] ⟨[], []⟩).declare "xs" (.collection Ty.integer [.integer 1, .integer 2])
    let source : Source := .elements (.var 1 "xs")
    let body : List Statement :=
      [.expression 2 (.call 2 "print" [.var 2 "x"]), .assign 3 "x" (.constant 3 (.integer 7)),
        .assign 4 "xs" (.collection 4 [])]
    s.stopped = false ∧
      (Statement.each 1 "x" source body).exec [] 1 s =
        unrolled [] 1 "x" source body [.integer 1, .integer 2] s := by
  intro s source body
  have hvs : source.values [] 1 s = .ok [.integer 1, .integer 2] s := rfl
  refine ⟨rfl, ?_⟩
  rcases loop_unrolls (s := s) rfl [] 1 1 "x" source with ⟨vs, t, hgives, h⟩ | ⟨h, t, hnone, -⟩
  · rw [Source.values_iff.mpr hgives] at hvs
    cases hvs
    exact h body
  · exact absurd (Source.values_iff.mp hvs) (hnone _ _)

end Statement
end Crunch
