import Crunch.Pattern.Bundled
import Crunch.Proofs.Steady
import Crunch.Proofs.Visits

/-!
# Crunch.Proofs.Stop

What is left of a script once the flag for its end is set.

* `Visit.Interrupts`: evaluating or carrying out a visited phrase fails because of the flag.
* `Logged.Echoes`: a computation with visits does what the one without does, and fails with the
  interruption of each phrase that it visits.
* `Logged.Mirrors`: with the flag set, it moreover visits phrases of a list only, each at most once and in
  their order, and it ends.
* `Visit.Checks`: the places where the flag is looked at.
* `Program.stop_bounds_and_escapes`: the whole of it, for scripts.
-/

namespace Crunch

open Run

/-- Whether the phrase of a visit fails, at a line, because the script has to end. -/
def Visit.Interrupts (passes line : Nat) (v : Visit) : Prop :=
  match v.site.phrase with
  | .expression e => ∃ t, e.operand v.held v.state = .error (.error ⟨line, .interrupted⟩) t
  | .statement st => ∃ t, st.exec v.held passes v.state = .error (.error ⟨line, .interrupted⟩) t

theorem Run.checkStop_stopped {line : Nat} {s : State} (hs : s.stopped = true) :
    checkStop line s = .error (.error ⟨line, .interrupted⟩) s := by
  rw [checkStop_eq, if_pos hs]
  rfl

namespace Logged

variable {α β : Type} {passes line : Nat} {sites sites' : List Site}

/-- A computation with visits, next to the same one without. -/
structure Echoes (passes : Nat) (x : Logged α) (y : Run α) : Prop where
  run : x.run = y
  interrupts : ∀ s, ∀ v ∈ x.visits s, ∀ line, v.Interrupts passes line →
    ∃ t, y s = .error (.error ⟨line, .interrupted⟩) t

/-- With the flag set, the computation ends, and visits some of the sites in their order. -/
structure Mirrors (passes : Nat) (sites : List Site) (x : Logged α) (y : Run α) : Prop
    extends Echoes passes x y where
  visits : 0 < passes → ∀ s : State, s.stopped = true → ((x.visits s).map (·.site)).Sublist sites
  stopped : 0 < passes → ∀ s : State, s.stopped = true → ∀ v ∈ x.visits s, v.state.stopped = true
  ends : 0 < passes → ∀ s : State, s.stopped = true →
    Ends y s (fun _ t => t.stopped = true) fun h t => t.stopped = true ∧ h ≠ .outOfFuel

/-! ## Rules for the same computation -/

/-- The second part starts where the first one ends. -/
theorem bind_eq (x : Logged α) (f : α → Logged β) (s : State) :
    (x >>= f) s = match x.run s with
      | .ok a t => (x.visits s ++ (f a).visits t, (f a).run t)
      | .error e t => (x.visits s, .error e t) := by
  rw [run, visits]
  simp only [bind]
  rcases x s with ⟨vs, _ | _⟩ <;> rfl

theorem visits_bind_of_ok {x : Logged α} {f : α → Logged β} {s t : State} {a : α} (h : x.run s = .ok a t) :
    (x >>= f).visits s = x.visits s ++ (f a).visits t := by
  rw [visits, bind_eq, h]

theorem visits_bind_of_error {x : Logged α} {f : α → Logged β} {s t : State} {e : Halt Fault}
    (h : x.run s = .error e t) : (x >>= f).visits s = x.visits s := by
  rw [visits, bind_eq, h]

theorem run_bind (x : Logged α) (f : α → Logged β) : (x >>= f).run = x.run >>= fun a => (f a).run := by
  funext s
  change ((x >>= f) s).2 = EStateM.bind x.run (fun a => (f a).run) s
  rw [bind_eq, EStateM.bind]
  cases x.run s <;> rfl

theorem echoes_quietly (y : Run α) : Echoes passes (quietly y) y := ⟨rfl, nofun⟩

theorem echoes_pure (a : α) : Echoes passes (pure a) (pure a) := ⟨rfl, nofun⟩

theorem Echoes.bind {x : Logged α} {y : Run α} {f : α → Logged β} {g : α → Run β} (hx : Echoes passes x y)
    (hf : ∀ a, Echoes passes (f a) (g a)) : Echoes passes (x >>= f) (y >>= g) := by
  refine ⟨?_, fun s v hv line hi => ?_⟩
  · rw [run_bind, hx.run]
    exact congrArg (y >>= ·) (funext fun a => (hf a).run)
  · cases hy : y s with
    | ok a t =>
      rw [visits_bind_of_ok (hx.run ▸ hy)] at hv
      rcases List.mem_append.mp hv with hv | hv
      · obtain ⟨u, hu⟩ := hx.interrupts s v hv line hi
        rw [hy] at hu
        cases hu
      · rw [bind_of_ok hy]
        exact (hf a).interrupts t v hv line hi
    | error e t =>
      rw [visits_bind_of_error (hx.run ▸ hy)] at hv
      obtain ⟨u, hu⟩ := hx.interrupts s v hv line hi
      exact ⟨u, bind_of_error hu⟩

theorem Echoes.andThen {y : Run α} {f : α → Logged β} {g : α → Run β}
    (hf : ∀ a, Echoes passes (f a) (g a)) : Echoes passes (quietly y >>= f) (y >>= g) :=
  (echoes_quietly y).bind hf

/-- An interruption passes through what leaves errors of its kind alone. -/
theorem Echoes.around {x : Logged α} {y : Run α} {enter : State → State} {f : Run α → Run β}
    (hf : ∀ s c t, y (enter s) = .error (.error ⟨c, .interrupted⟩) t →
      ∃ u, f y s = .error (.error ⟨c, .interrupted⟩) u)
    (hx : Echoes passes x y) : Echoes passes (x.around enter f) (f y) := by
  refine ⟨?_, fun s v hv line hi => ?_⟩
  · funext s
    exact congrFun (congrArg f hx.run) s
  · obtain ⟨t, ht⟩ := hx.interrupts _ v hv line hi
    exact hf s line t ht

theorem Echoes.nested {x : Logged α} {y : Run α} (hx : Echoes passes x y) :
    Echoes passes x.nested (Run.nested y) := by
  refine hx.around fun s c t ht => ⟨{ t with scopes := t.scopes.drop 1 }, ?_⟩
  simp only [Run.nested, ht]

theorem Echoes.failure? {x : Logged Unit} {y : Run Unit} (hx : Echoes passes x y) :
    Echoes passes x.failure? (Run.failure? y) := by
  refine hx.around fun s c t ht => ⟨t, ?_⟩
  rw [id] at ht
  simp only [Run.failure?, ht]
  rfl

theorem Echoes.pass {x : Logged Unit} {y : Run Unit} {name : String} {v : Value} (hx : Echoes passes x y) :
    Echoes passes (Logged.pass line name v x) (Run.pass line name v y) :=
  .andThen fun _ => (Echoes.andThen fun _ => hx.nested).nested

theorem echoes_repeatWhile {c : Logged Value} {c' : Run Value} {x : Logged Unit} {y : Run Unit}
    (hc : Echoes passes c c') (hx : Echoes passes x y) (n : Nat) :
    Echoes passes (repeatWhile line c x n) (Run.repeatWhile line c' y n) := by
  induction n with
  | zero => exact echoes_quietly _
  | succ n ih =>
    refine .andThen fun _ => hc.bind fun v => .andThen fun b => ?_
    split
    · exact hx.bind fun _ => ih
    · exact echoes_pure ()

/-! ## Rules for the end of a script -/

theorem Mirrors.weaken {x : Logged α} {y : Run α} (hx : Mirrors passes sites x y) (h : sites.Sublist sites') :
    Mirrors passes sites' x y :=
  ⟨hx.toEchoes, fun hp s hs => (hx.visits hp s hs).trans h, hx.stopped, hx.ends⟩

theorem mirrors_quietly {y : Run α} (hy : Steady y) : Mirrors passes [] (quietly y) y := by
  refine ⟨echoes_quietly y, fun _ _ _ => List.Sublist.slnil, fun _ _ _ => nofun, fun _ s hs => ?_⟩
  exact (hy s).mono (fun _ _ ht => ht.trans hs) fun _ _ ht => ⟨ht.1.trans hs, ht.2⟩

theorem mirrors_pure (a : α) : Mirrors passes [] (pure a) (pure a) := mirrors_quietly steady_pure

theorem Mirrors.bind {x : Logged α} {y : Run α} {f : α → Logged β} {g : α → Run β}
    (hx : Mirrors passes sites x y) (hf : ∀ a, Mirrors passes sites' (f a) (g a)) :
    Mirrors passes (sites ++ sites') (x >>= f) (y >>= g) := by
  refine ⟨hx.toEchoes.bind fun a => (hf a).toEchoes, fun hp s hs => ?_, fun hp s hs => ?_, fun hp s hs => ?_⟩
  · have hends := hx.ends hp s hs
    cases hy : y s with
    | ok a t =>
      rw [visits_bind_of_ok (hx.run ▸ hy), List.map_append]
      rw [ends_of_ok hy] at hends
      exact (hx.visits hp s hs).append ((hf a).visits hp t hends)
    | error e t =>
      rw [visits_bind_of_error (hx.run ▸ hy)]
      exact (hx.visits hp s hs).trans (List.sublist_append_left _ _)
  · have hends := hx.ends hp s hs
    cases hy : y s with
    | ok a t =>
      rw [visits_bind_of_ok (hx.run ▸ hy)]
      rw [ends_of_ok hy] at hends
      exact List.forall_mem_append.mpr ⟨hx.stopped hp s hs, (hf a).stopped hp t hends⟩
    | error e t =>
      rw [visits_bind_of_error (hx.run ▸ hy)]
      exact hx.stopped hp s hs
  · exact ends_bind.mpr ((hx.ends hp s hs).mono (fun a t ht => (hf a).ends hp t ht) fun _ _ ht => ht)

theorem Mirrors.andThen {y : Run α} {f : α → Logged β} {g : α → Run β} (hy : Steady y)
    (hf : ∀ a, Mirrors passes sites (f a) (g a)) : Mirrors passes sites (quietly y >>= f) (y >>= g) :=
  (mirrors_quietly hy).bind hf

/-- Nothing is visited after the last part. -/
theorem Mirrors.finish {x : Logged α} {y : Run α} {f : α → Logged β} {g : α → Run β}
    (hx : Mirrors passes sites x y) (hf : ∀ a, Mirrors passes [] (f a) (g a)) :
    Mirrors passes sites (x >>= f) (y >>= g) := by
  have h := hx.bind hf
  rwa [List.append_nil] at h

theorem Mirrors.nested {x : Logged α} {y : Run α} (hx : Mirrors passes sites x y) :
    Mirrors passes sites x.nested (Run.nested y) := by
  refine ⟨hx.toEchoes.nested, fun hp s hs => hx.visits hp _ hs, fun hp s hs => hx.stopped hp _ hs, ?_⟩
  intro hp s hs
  exact ends_nested.mpr (hx.ends hp { s with scopes := [] :: s.scopes } hs)

theorem Mirrors.failure? {x : Logged Unit} {y : Run Unit} (hx : Mirrors passes sites x y) :
    Mirrors passes sites x.failure? (Run.failure? y) := by
  refine ⟨hx.toEchoes.failure?, hx.visits, hx.stopped, fun hp s hs => ends_failure?.mpr ?_⟩
  refine (hx.ends hp s hs).mono (fun _ _ ht => ht) fun h t ht => ?_
  cases h with
  | error f =>
    simp only
    split
    · exact ht.1
    · exact ht
  | outOfFuel => exact ht

theorem Mirrors.shortCircuit {x : Logged Operand} {y : Run Operand} {op : BinaryOp} {l : Operand}
    (hx : Mirrors passes sites x y) :
    Mirrors passes sites (Logged.shortCircuit line op l x) (Run.shortCircuit line op l y) := by
  refine .andThen steady_read fun v => .andThen steady_lift fun a => ?_
  cases Operation.decided op a with
  | some b => exact (mirrors_pure _).weaken (List.nil_sublist _)
  | none =>
    refine hx.finish fun r => .andThen steady_read fun _ => .andThen steady_read fun w => ?_
    exact .andThen steady_lift fun b => mirrors_quietly steady_counted

/-- A computation that looks at the flag first visits nothing. -/
theorem mirrors_checkStop {f : Unit → Logged α} {g : Unit → Run α}
    (hf : Echoes passes (quietly (checkStop line) >>= f) (checkStop line >>= g)) :
    Mirrors passes [] (quietly (checkStop line) >>= f) (checkStop line >>= g) := by
  have hnone : ∀ s : State, s.stopped = true → (quietly (checkStop line) >>= f).visits s = [] := fun s hs =>
    visits_bind_of_error (x := quietly (checkStop line)) (checkStop_stopped hs)
  refine ⟨hf, fun _ s hs => ?_, fun _ s hs v hv => ?_, fun _ s hs => ?_⟩
  · rw [hnone s hs]
    exact List.Sublist.slnil
  · rw [hnone s hs] at hv
    cases hv
  · rw [ends_of_error (bind_of_error (checkStop_stopped hs))]
    exact ⟨hs, nofun⟩

theorem mirrors_repeatWhile {c : Logged Value} {c' : Run Value} {x : Logged Unit} {y : Run Unit}
    (hc : Echoes passes c c') (hx : Echoes passes x y) :
    Mirrors passes [] (repeatWhile line c x passes) (Run.repeatWhile line c' y passes) := by
  have hecho : ∀ n, Echoes passes (repeatWhile line c x n) (Run.repeatWhile line c' y n) := echoes_repeatWhile hc hx
  cases passes with
  | zero => exact ⟨hecho 0, nofun, nofun, nofun⟩
  | succ n => exact mirrors_checkStop (hecho (n + 1))

theorem Echoes.mirrorsPass {x : Logged Unit} {y : Run Unit} {name : String} {v : Value} (hx : Echoes passes x y) :
    Mirrors passes [] (Logged.pass line name v x) (Run.pass line name v y) :=
  mirrors_checkStop hx.pass

theorem mirrors_eachInteger {name : String} {x : Logged Unit} {y : Run Unit} (hx : Echoes passes x y) (n : Nat)
    (i : Int64) : Mirrors passes [] (eachInteger line name x n i) (Run.eachInteger line name y n i) := by
  induction n generalizing i with
  | zero => exact mirrors_pure ()
  | succ n ih => exact hx.mirrorsPass.bind fun _ => ih (i + 1)

theorem mirrors_eachValue {name : String} {x : List Value → Logged Unit} {y : List Value → Run Unit}
    (hx : ∀ rest, Echoes passes (x rest) (y rest)) (vs : List Value) :
    Mirrors passes [] (eachValue line name x vs) (Run.eachValue line name y vs) := by
  induction vs with
  | nil => exact mirrors_pure ()
  | cons v rest ih => exact (hx rest).mirrorsPass.bind fun _ => ih

/-! ## Visits -/

/-- What is visited is evaluated next, in the state of the visit. -/
theorem Mirrors.visiting {x : Logged α} {y : Run α} {site : Site} {held : List Value}
    (hx : Mirrors passes sites x y)
    (hv : ∀ s line, Visit.Interrupts passes line ⟨site, held, s⟩ →
      ∃ t, y s = .error (.error ⟨line, .interrupted⟩) t) :
    Mirrors passes (site :: sites) (visit site held >>= fun _ => x) y := by
  refine ⟨⟨hx.run, fun s v hmem line hi => ?_⟩, fun hp s hs => (hx.visits hp s hs).cons_cons site, ?_, hx.ends⟩
  · rcases List.mem_cons.mp hmem with rfl | hmem
    · exact hv s line hi
    · exact hx.interrupts s v hmem line hi
  · exact fun hp s hs => List.forall_mem_cons.mpr ⟨hs, hx.stopped hp s hs⟩

end Logged

open Logged

/-! ## Expressions -/

namespace Expr

variable {passes : Nat}

mutual

theorem mirrors_follow (depth : Nat) (inLoop : Bool) (held : List Value) (e : Expr) :
    Mirrors passes (e.sites depth inLoop) (e.follow depth inLoop held) (e.operand held) := by
  rw [Expr.sites.eq_def, Expr.follow.eq_def]
  refine Mirrors.visiting ?_ fun s line hi => hi
  cases e with
  | constant line c =>
    rw [Expr.operand]
    exact mirrors_pure _
  | var line name =>
    rw [Expr.operand]
    exact .andThen steady_lookup fun _ => mirrors_pure _
  | unary line op e =>
    rw [Expr.operand]
    refine (mirrors_follow _ _ held e).finish fun o => .andThen steady_read fun v => .andThen steady_lift fun w => ?_
    exact .andThen steady_counted fun _ => mirrors_pure _
  | binary line op left right =>
    rw [Expr.operand]
    refine (mirrors_follow _ _ held left).bind fun l => ?_
    split
    · exact (mirrors_follow _ _ held right).shortCircuit.finish fun _ => mirrors_pure _
    · refine (mirrors_follow _ _ _ right).finish fun r => ?_
      exact .andThen steady_combine fun _ => mirrors_pure _
  | call line name es =>
    rw [Expr.operand]
    refine .andThen (fun _ => rfl) fun s => ?_
    cases s.imported? name with
    | some t =>
      refine (mirrors_followAll _ _ held es).finish fun args => ?_
      exact .andThen steady_construct fun _ => mirrors_pure _
    | none =>
      cases Builtin.ofName? name with
      | none => exact (mirrors_quietly steady_fail).weaken (List.nil_sublist _)
      | some b =>
        simp only
        split
        · refine (mirrors_followAll _ _ held es).finish fun args => ?_
          exact .andThen Builtin.steady_call fun _ => mirrors_pure _
        · exact (mirrors_quietly steady_fail).weaken (List.nil_sublist _)
  | member line receiver m es =>
    rw [Expr.operand]
    refine (mirrors_follow _ _ held receiver).bind fun o => .andThen steady_read fun v => ?_
    cases v with
    | object native id =>
      refine (mirrors_followAll _ _ _ es).finish fun args => ?_
      exact .andThen steady_callObject fun _ => mirrors_pure _
    | _ => exact (mirrors_followAll _ _ _ es).finish fun args => mirrors_quietly steady_callMember
  | index line target position =>
    rw [Expr.operand]
    refine (mirrors_follow _ _ held target).bind fun o => ?_
    refine (mirrors_follow _ _ _ position).finish fun p => .andThen steady_read fun i => ?_
    refine .andThen steady_lift fun i => .andThen steady_read fun v => .andThen steady_lift fun c => ?_
    exact .andThen steady_lift fun _ => mirrors_pure _
  | field line target position =>
    rw [Expr.operand]
    refine (mirrors_follow _ _ held target).finish fun o => .andThen steady_read fun v => ?_
    exact .andThen steady_lift fun r => .andThen steady_lift fun _ => mirrors_pure _
  | collection line es =>
    rw [Expr.operand]
    refine (mirrors_followAll _ _ held es).finish fun args => ?_
    exact .andThen steady_lift fun c => mirrors_pure _

theorem mirrors_followAll (depth : Nat) (inLoop : Bool) (held : List Value) (es : List Expr) :
    Mirrors passes (Expr.sitesAll depth inLoop es) (Expr.followAll depth inLoop held es)
      (Expr.arguments held es) := by
  cases es with
  | nil =>
    rw [Expr.sitesAll, Expr.followAll, Expr.arguments]
    exact mirrors_pure _
  | cons e es =>
    rw [Expr.sitesAll, Expr.followAll, Expr.arguments]
    refine (mirrors_follow depth inLoop held e).bind fun o => .andThen steady_read fun v => ?_
    exact (mirrors_followAll depth inLoop _ es).finish fun args => mirrors_pure _

end

theorem mirrors_followEval (depth : Nat) (inLoop : Bool) (held : List Value) (e : Expr) :
    Mirrors passes (e.sites depth inLoop) (e.followEval depth inLoop held) (e.eval held) :=
  (mirrors_follow depth inLoop held e).finish fun _ => mirrors_quietly steady_read

end Expr

/-! ## Statements -/

namespace Statement

variable {passes : Nat}

/-- Handlers of the same names do the same, so the handler of an error does. -/
theorem findHandler?_mirrors {sites : List Site} {hs : List (String × Logged Unit)}
    {hs' : List (String × Run Unit)}
    (h : ∀ name, Option.Rel (Mirrors passes sites) (hs.lookup name) (hs'.lookup name)) (name : String) :
    Option.Rel (Mirrors passes sites) (findHandler? name hs) (findHandler? name hs') := by
  have hname := h name
  unfold findHandler?
  generalize hs.lookup name = a at hname ⊢
  generalize hs'.lookup name = b at hname ⊢
  cases hname with
  | some hxy => exact .some hxy
  | none => exact h anyError

mutual

theorem mirrors_follow (depth : Nat) (inLoop : Bool) (held : List Value) (st : Statement) :
    Mirrors passes (st.sites depth inLoop) (st.follow depth inLoop held passes) (st.exec held passes) := by
  rw [Statement.sites.eq_def, Statement.follow.eq_def]
  refine Mirrors.visiting ?_ fun s line hi => hi
  cases st with
  | expression line e =>
    rw [Statement.exec, ← bind_pure_comp]
    exact (Expr.mirrors_followEval _ _ held e).finish fun _ => mirrors_pure _
  | declare line name e =>
    rw [Statement.exec]
    refine (Expr.mirrors_followEval _ _ held e).finish fun v => ?_
    exact .andThen steady_define fun _ => mirrors_pure _
  | assign line name e =>
    rw [Statement.exec]
    refine (Expr.mirrors_followEval _ _ held e).finish fun v => ?_
    exact .andThen steady_store fun _ => mirrors_pure _
  | compound line name op e =>
    rw [Statement.exec]
    refine (Expr.mirrors_follow _ _ held e).finish fun r => .andThen steady_combine fun v => ?_
    exact .andThen steady_store fun _ => mirrors_pure _
  | choice line branches otherwise =>
    rw [Statement.exec]
    refine Mirrors.finish ?_ fun _ => mirrors_pure _
    exact mirrors_followBranches _ _ held line (mirrors_followOptional _ _ held otherwise) branches
  | loop line condition body =>
    rw [Statement.exec]
    refine Mirrors.finish ?_ fun _ => mirrors_pure _
    have hbody := (mirrors_followAll (depth + 1) true held body).nested
    have hcondition : Mirrors passes _ _ _ := Expr.mirrors_followEval (depth + 1) inLoop held condition
    exact (mirrors_repeatWhile hcondition.toEchoes hbody.toEchoes).weaken (List.nil_sublist _)
  | each line name source body =>
    have hbody : ∀ held, Mirrors passes _ _ _ := fun held => mirrors_followAll (depth + 1) true held body
    cases source with
    | range start bound inclusive =>
      rw [Statement.exec]
      refine (Expr.mirrors_followEval _ _ held start).bind fun v => .andThen steady_lift fun a => ?_
      refine (Expr.mirrors_followEval _ _ held bound).finish fun w => .andThen steady_lift fun b => ?_
      exact (mirrors_eachInteger (hbody held).toEchoes _ _).finish fun _ => mirrors_pure _
    | elements e =>
      rw [Statement.exec]
      refine (Expr.mirrors_followEval _ _ held e).finish fun v => .andThen steady_lift fun c => ?_
      exact (mirrors_eachValue (fun rest => (hbody (rest ++ held)).toEchoes) _).finish fun _ => mirrors_pure _
  | raise line name =>
    rw [Statement.exec]
    exact mirrors_quietly steady_fail
  | attempt line body handlers =>
    rw [Statement.exec]
    refine (mirrors_followAll _ _ held body).nested.failure?.bind fun f? => ?_
    cases f? with
    | none => exact (mirrors_pure _).weaken (List.nil_sublist _)
    | some f =>
      have hfound := findHandler?_mirrors (mirrors_followHandlers (depth + 1) inLoop held handlers) f.name
      simp only
      generalize findHandler? f.name (followHandlers (depth + 1) inLoop held passes handlers) = a at hfound ⊢
      generalize findHandler? f.name (execHandlers held passes handlers) = b at hfound ⊢
      cases hfound with
      | none => exact (mirrors_quietly steady_throw).weaken (List.nil_sublist _)
      | some hxy => exact (Mirrors.andThen steady_define fun _ => hxy).nested.finish fun _ => mirrors_pure _
  | load line name =>
    rw [Statement.exec]
    exact .andThen steady_importType fun _ => mirrors_pure _

theorem mirrors_followAll (depth : Nat) (inLoop : Bool) (held : List Value) (sts : List Statement) :
    Mirrors passes (Statement.sitesAll depth inLoop sts) (Statement.followAll depth inLoop held passes sts)
      (Statement.execAll held passes sts) := by
  cases sts with
  | nil =>
    rw [Statement.sitesAll, Statement.followAll, Statement.execAll]
    exact mirrors_pure _
  | cons st rest =>
    rw [Statement.sitesAll, Statement.followAll, Statement.execAll]
    exact (mirrors_follow depth inLoop held st).bind fun _ => mirrors_followAll depth inLoop held rest

theorem mirrors_followBranches (depth : Nat) (inLoop : Bool) (held : List Value) (line : Nat) {sites : List Site}
    {x : Logged Unit} {y : Run Unit} (hxy : Mirrors passes sites x y) (branches : List (Expr × List Statement)) :
    Mirrors passes (Statement.sitesBranches depth inLoop branches ++ sites)
      (Statement.followBranches depth inLoop held passes line x branches)
      (Statement.execBranches held passes line y branches) := by
  cases branches with
  | nil =>
    rw [Statement.sitesBranches, Statement.followBranches, Statement.execBranches]
    exact hxy
  | cons branch rest =>
    obtain ⟨condition, body⟩ := branch
    rw [Statement.sitesBranches, Statement.followBranches, Statement.execBranches, List.append_assoc,
      List.append_assoc]
    refine (Expr.mirrors_followEval depth inLoop held condition).bind fun v => .andThen steady_lift fun b => ?_
    split
    · exact (mirrors_followAll depth inLoop held body).nested.weaken (List.sublist_append_left _ _)
    · exact (mirrors_followBranches depth inLoop held line hxy rest).weaken (List.sublist_append_right _ _)

theorem mirrors_followOptional (depth : Nat) (inLoop : Bool) (held : List Value) (body : Option (List Statement)) :
    Mirrors passes (Statement.sitesOptional depth inLoop body)
      (Statement.followOptional depth inLoop held passes body) (Statement.execOptional held passes body) := by
  cases body with
  | none =>
    rw [Statement.sitesOptional, Statement.followOptional, Statement.execOptional]
    exact mirrors_pure _
  | some body =>
    rw [Statement.sitesOptional, Statement.followOptional, Statement.execOptional]
    exact (mirrors_followAll depth inLoop held body).nested

theorem mirrors_followHandlers (depth : Nat) (inLoop : Bool) (held : List Value)
    (handlers : List (Handler Statement)) (name : String) :
    Option.Rel (Mirrors passes (Statement.sitesHandlers depth inLoop handlers))
      ((Statement.followHandlers depth inLoop held passes handlers).lookup name)
      ((Statement.execHandlers held passes handlers).lookup name) := by
  cases handlers with
  | nil =>
    rw [Statement.followHandlers, Statement.execHandlers]
    exact .none
  | cons handler rest =>
    obtain ⟨n, line, body⟩ := handler
    rw [Statement.sitesHandlers, Statement.followHandlers, Statement.execHandlers, List.lookup_cons,
      List.lookup_cons]
    split
    · exact .some ((mirrors_followAll depth inLoop held body).weaken (List.sublist_append_left _ _))
    · have hrest := mirrors_followHandlers depth inLoop held rest name
      generalize (followHandlers depth inLoop held passes rest).lookup name = a at hrest ⊢
      generalize (execHandlers held passes rest).lookup name = b at hrest ⊢
      cases hrest with
      | some hxy => exact .some (hxy.weaken (List.sublist_append_right _ _))
      | none => exact .none

end

end Statement

theorem Program.mirrors_followFrom {passes : Nat} (held : List Value) (last : Option Value) (p : Program) :
    Mirrors passes p.sites (p.followFrom held passes last) (p.execFrom held passes last) := by
  induction p generalizing last with
  | nil => exact mirrors_pure last
  | cons st rest ih => exact (Statement.mirrors_follow 0 false (last.toList ++ held) st).bind fun v => ih (v.or last)

/-! ## Where phrases stand -/

/-- Sites are nested less deep than there are sites, and the same loops are around them. -/
def Site.Stand (depth : Nat) (inLoop : Bool) (sites : List Site) : Prop :=
  ∀ p ∈ sites, p.depth < depth + sites.length ∧ p.inLoop = inLoop

namespace Site

variable {depth : Nat} {inLoop : Bool} {sites sites' : List Site}

theorem stand_nil : Stand depth inLoop [] := nofun

theorem Stand.append (h : Stand depth inLoop sites) (h' : Stand depth inLoop sites') :
    Stand depth inLoop (sites ++ sites') := by
  intro p hp
  rw [List.length_append]
  rcases List.mem_append.mp hp with hp | hp
  · have := h p hp
    exact ⟨by omega, this.2⟩
  · have := h' p hp
    exact ⟨by omega, this.2⟩

theorem Stand.cons {phrase : Phrase} (h : Stand (depth + 1) inLoop sites) :
    Stand depth inLoop (⟨depth, inLoop, phrase⟩ :: sites) := by
  intro p hp
  rw [List.length_cons]
  rcases List.mem_cons.mp hp with rfl | hp
  · exact ⟨by simp only; omega, rfl⟩
  · have := h p hp
    exact ⟨by omega, this.2⟩

end Site

open Site

mutual

theorem Expr.stand_sites (depth : Nat) (inLoop : Bool) (e : Expr) : Stand depth inLoop (e.sites depth inLoop) := by
  rw [Expr.sites.eq_def]
  refine Stand.cons ?_
  cases e with
  | constant line c | var line name => exact stand_nil
  | unary line op e | field line e position => exact Expr.stand_sites _ _ e
  | binary line op left right | index line left right =>
    exact (Expr.stand_sites _ _ left).append (Expr.stand_sites _ _ right)
  | call line name es | collection line es => exact Expr.stand_sitesAll _ _ es
  | member line receiver m es => exact (Expr.stand_sites _ _ receiver).append (Expr.stand_sitesAll _ _ es)

theorem Expr.stand_sitesAll (depth : Nat) (inLoop : Bool) (es : List Expr) :
    Stand depth inLoop (Expr.sitesAll depth inLoop es) := by
  cases es with
  | nil => exact stand_nil
  | cons e es =>
    rw [Expr.sitesAll]
    exact (Expr.stand_sites _ _ e).append (Expr.stand_sitesAll _ _ es)

end

mutual

theorem Statement.stand_sites (depth : Nat) (inLoop : Bool) (st : Statement) :
    Stand depth inLoop (st.sites depth inLoop) := by
  rw [Statement.sites.eq_def]
  refine Stand.cons ?_
  cases st with
  | expression line e | declare line name e | assign line name e | compound line name op e | loop line e body =>
    exact Expr.stand_sites _ _ e
  | choice line branches otherwise =>
    exact (Statement.stand_sitesBranches _ _ branches).append (Statement.stand_sitesOptional _ _ otherwise)
  | each line name source body =>
    cases source with
    | elements e => exact Expr.stand_sites _ _ e
    | range start bound inclusive => exact (Expr.stand_sites _ _ start).append (Expr.stand_sites _ _ bound)
  | attempt line body handlers =>
    exact (Statement.stand_sitesAll _ _ body).append (Statement.stand_sitesHandlers _ _ handlers)
  | raise line name | load line name => exact stand_nil

theorem Statement.stand_sitesAll (depth : Nat) (inLoop : Bool) (sts : List Statement) :
    Stand depth inLoop (Statement.sitesAll depth inLoop sts) := by
  cases sts with
  | nil =>
    rw [Statement.sitesAll]
    exact stand_nil
  | cons st rest =>
    rw [Statement.sitesAll]
    exact (Statement.stand_sites _ _ st).append (Statement.stand_sitesAll _ _ rest)

theorem Statement.stand_sitesBranches (depth : Nat) (inLoop : Bool) (branches : List (Expr × List Statement)) :
    Stand depth inLoop (Statement.sitesBranches depth inLoop branches) := by
  cases branches with
  | nil =>
    rw [Statement.sitesBranches]
    exact stand_nil
  | cons branch rest =>
    obtain ⟨condition, body⟩ := branch
    rw [Statement.sitesBranches]
    refine (Expr.stand_sites _ _ condition).append ?_
    exact (Statement.stand_sitesAll _ _ body).append (Statement.stand_sitesBranches _ _ rest)

theorem Statement.stand_sitesOptional (depth : Nat) (inLoop : Bool) (body : Option (List Statement)) :
    Stand depth inLoop (Statement.sitesOptional depth inLoop body) := by
  cases body with
  | none =>
    rw [Statement.sitesOptional]
    exact stand_nil
  | some body =>
    rw [Statement.sitesOptional]
    exact Statement.stand_sitesAll _ _ body

theorem Statement.stand_sitesHandlers (depth : Nat) (inLoop : Bool) (handlers : List (Handler Statement)) :
    Stand depth inLoop (Statement.sitesHandlers depth inLoop handlers) := by
  cases handlers with
  | nil =>
    rw [Statement.sitesHandlers]
    exact stand_nil
  | cons handler rest =>
    obtain ⟨name, line, body⟩ := handler
    rw [Statement.sitesHandlers]
    exact (Statement.stand_sitesAll _ _ body).append (Statement.stand_sitesHandlers _ _ rest)

end

/-! ## Where the flag is looked at -/

/-- A visit of a `while`, of a `for` that has something to run over, or of a call of `input`, at a line. -/
inductive Visit.Checks (line : Nat) : Visit → Prop where
  | loop {depth : Nat} {inLoop : Bool} {held : List Value} {s : State} {condition : Expr} {body : List Statement} :
      Visit.Checks line ⟨⟨depth, inLoop, .statement (.loop line condition body)⟩, held, s⟩
  | elements {depth : Nat} {inLoop : Bool} {held : List Value} {s t : State} {name : String} {e : Expr}
      {body : List Statement} {v : Value} {c : Collection} :
      e.eval held s = .ok v t → Collection.ofValue? v = .ok c → c.items ≠ [] →
        Visit.Checks line ⟨⟨depth, inLoop, .statement (.each line name (.elements e) body)⟩, held, s⟩
  | range {depth : Nat} {inLoop : Bool} {held : List Value} {s t u : State} {name : String} {start bound : Expr}
      {inclusive : Bool} {body : List Statement} {v w : Value} {a b : Int64} :
      start.eval held s = .ok v t → v.integer? = .ok a → bound.eval held t = .ok w u → w.integer? = .ok b →
        0 < rangeSize a b inclusive →
        Visit.Checks line ⟨⟨depth, inLoop, .statement (.each line name (.range start bound inclusive) body)⟩, held, s⟩
  | input {depth : Nat} {inLoop : Bool} {held : List Value} {s t : State} {e : Expr} {a : Argument} :
      s.imported? Builtin.input.name = none → Expr.arguments held [e] s = .ok [a] t →
        (Builtin.input.domain 0).admits a.value.type →
        Visit.Checks line ⟨⟨depth, inLoop, .expression (.call line Builtin.input.name [e])⟩, held, s⟩

namespace Run

variable {line : Nat} {s : State}

theorem lift_of_ok {α : Type} {r : Except Fault.Cause α} {a : α} (h : r = .ok a) : lift line r s = .ok a s := by
  rw [h]
  rfl

theorem repeatWhile_stopped {condition : Run Value} {body : Run Unit} {passes : Nat} (hp : 0 < passes)
    (hs : s.stopped = true) :
    repeatWhile line condition body passes s = .error (.error ⟨line, .interrupted⟩) s := by
  cases passes with
  | zero => exact absurd hp (Nat.lt_irrefl 0)
  | succ n => exact bind_of_error (checkStop_stopped hs)

theorem eachInteger_stopped {name : String} {body : Run Unit} {n : Nat} {i : Int64} (hn : 0 < n)
    (hs : s.stopped = true) : eachInteger line name body n i s = .error (.error ⟨line, .interrupted⟩) s := by
  cases n with
  | zero => exact absurd hn (Nat.lt_irrefl 0)
  | succ n => exact bind_of_error (bind_of_error (checkStop_stopped hs))

theorem eachValue_stopped {name : String} {body : List Value → Run Unit} {vs : List Value} (hvs : vs ≠ [])
    (hs : s.stopped = true) : eachValue line name body vs s = .error (.error ⟨line, .interrupted⟩) s := by
  cases vs with
  | nil => exact absurd rfl hvs
  | cons v rest => exact bind_of_error (bind_of_error (checkStop_stopped hs))

end Run

theorem Builtin.input_stopped {line : Nat} {s : State} {a : Argument}
    (ha : (Builtin.input.domain 0).admits a.value.type) (hs : s.stopped = true) :
    Builtin.input.call line [a] s = .error (.error ⟨line, .interrupted⟩) s := by
  have hfit : Builtin.input.misfit? [a.value.type] = none := by simp [misfit?, ha]
  have hcall : Builtin.input.call line [a] = readInput line [a] := by
    simp only [call, List.map_cons, List.map_nil, hfit]
    rfl
  rw [hcall]
  exact bind_of_error (bind_of_error (checkStop_stopped hs))

/-- Each of them fails once the flag is set. -/
theorem Visit.Checks.interrupts {passes line : Nat} {v : Visit} (h : v.Checks line) (hp : 0 < passes)
    (hs : v.state.stopped = true) : v.Interrupts passes line := by
  have heval : ∀ {held : List Value} {e : Expr} {s t : State} {v : Value}, s.stopped = true →
      e.eval held s = .ok v t → t.stopped = true := fun {held e s t v} hs hv =>
    (ends_of_ok hv).mp ((Expr.mirrors_followEval 0 false held e).ends hp s hs)
  cases h with
  | @loop depth inLoop held s condition body =>
    refine ⟨s, ?_⟩
    rw [Statement.exec]
    exact bind_of_error (repeatWhile_stopped hp hs)
  | @elements depth inLoop held s t name e body v c hv hc hitems =>
    refine ⟨t, ?_⟩
    rw [Statement.exec]
    refine (bind_of_ok hv).trans ((bind_of_ok (lift_of_ok hc)).trans ?_)
    exact bind_of_error (eachValue_stopped hitems (heval hs hv))
  | @range depth inLoop held s t u name start bound inclusive body v w a b hv ha hw hb hsize =>
    refine ⟨u, ?_⟩
    rw [Statement.exec]
    refine (bind_of_ok hv).trans ((bind_of_ok (lift_of_ok ha)).trans ?_)
    refine (bind_of_ok hw).trans ((bind_of_ok (lift_of_ok hb)).trans ?_)
    exact bind_of_error (eachInteger_stopped hsize (heval (heval hs hv) hw))
  | @input depth inLoop held s t e a himport ha hdomain =>
    have ht : t.stopped = true := (ends_of_ok ha).mp ((Expr.mirrors_followAll 0 false held [e]).ends hp s hs)
    refine ⟨t, ?_⟩
    rw [Expr.operand]
    refine (get_bind _ s).trans ?_
    rw [himport]
    refine (bind_of_ok ha).trans (bind_of_error ?_)
    exact Builtin.input_stopped hdomain ht

/-! ## Scripts -/

/-- With the flag set, a script ends. It comes to phrases outside of loop bodies only, each at most once and in
their order, and so to no more of them, and to none deeper, than there are. Whatever interrupts one of them,
and every place that looks at the flag does, ends the script as a whole. -/
theorem Program.stop_bounds_and_escapes (p : Program) (passes : Nat) (s : State) (hp : 0 < passes)
    (hs : s.stopped = true) :
    (p.follow passes).run = p.exec passes ∧
      Ends (p.exec passes) s (fun _ t => t.stopped = true) (fun h t => t.stopped = true ∧ h ≠ .outOfFuel) ∧
      (((p.follow passes).visits s).map (·.site)).Sublist p.sites ∧
      ((p.follow passes).visits s).length ≤ p.sites.length ∧
      (∀ v ∈ (p.follow passes).visits s, v.site.depth < p.sites.length ∧ v.site.inLoop = false) ∧
      (∀ v ∈ (p.follow passes).visits s, ∀ line, v.Checks line → v.Interrupts passes line) ∧
      ∀ v ∈ (p.follow passes).visits s, ∀ line, v.Interrupts passes line →
        ∃ t, p.exec passes s = .error (.error ⟨line, .interrupted⟩) t := by
  have hmirrors : Mirrors passes p.sites (p.follow passes) (p.exec passes) := p.mirrors_followFrom [] none
  have hvisits := hmirrors.visits hp s hs
  refine ⟨hmirrors.run, hmirrors.ends hp s hs, hvisits, ?_, fun v hv => ?_, fun v hv line h => ?_, ?_⟩
  · have := hvisits.length_le
    rwa [List.length_map] at this
  · have hstand := Statement.stand_sitesAll 0 false p v.site (hvisits.subset (List.mem_map_of_mem hv))
    rwa [Nat.zero_add] at hstand
  · exact h.interrupts hp (hmirrors.stopped hp s hs v hv)
  · exact hmirrors.interrupts s

/-- A loop that never ends ends, through handlers of its error and of every error. -/
theorem Program.stop_bounds_and_escapes_handlers :
    let s : State := { State.fresh .bundled ⟨[], 0, []⟩ [] ⟨[], []⟩ with stopped := true }
    let p : Program :=
      [.attempt 1 [.loop 2 (.constant 2 (.boolean true)) []] [⟨"interrupted", 3, []⟩, ⟨anyError, 4, []⟩]]
    0 < 1 ∧ s.stopped = true ∧ ∃ t, Program.exec 1 p s = .error (.error ⟨2, .interrupted⟩) t := by
  intro s p
  obtain ⟨-, -, -, -, -, hchecks, hescapes⟩ := Program.stop_bounds_and_escapes p 1 s (by decide) rfl
  let v : Visit := ⟨⟨1, false, .statement (.loop 2 (.constant 2 (.boolean true)) [])⟩, [], { s with scopes := [] :: s.scopes }⟩
  have hv : v ∈ (Program.follow 1 p).visits s := .tail _ (.head _)
  exact ⟨by decide, rfl, hescapes v hv 2 (hchecks v hv 2 .loop)⟩

/-- An error that a script raises under the same name is no interruption. -/
example (held : List Value) (line : Nat) (s : State) :
    Statement.exec held 1 (.attempt line [.raise line "interrupted"] [⟨"interrupted", line, []⟩]) s = .ok none s := rfl

end Crunch
