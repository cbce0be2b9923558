import Crunch.Pattern.Bundled
import Crunch.Proofs.Holding
import Crunch.Proofs.Occurrences
import Crunch.Proofs.Steady
import Crunch.Session

/-!
# Crunch.Proofs.Lifetime

Objects live exactly as long as variables refer to them.

* `State.Accounted`: each object that was ever made is either in use or has been given up, once.
* `State.Orderly`: what holds between the steps of a run of scripts, even when a step has just ended.
* `State.Settled`: what holds when the objects that no variable refers to have been given up.
* `Session.Reached`: the states between steps.
* `Session.objects_held`: what has become of each object, and how many aliases of it there are.
-/

namespace Crunch

open Run

namespace State

variable {s t : State}

/-- Each object that was made is in use or has been given up, and only once. -/
def Accounted (s : State) : Prop := ((s.objects ++ s.released).map (·.id)).Perm (List.range s.nextId)

/-- How often an object has been given up. -/
def destroyed (s : State) (id : Nat) : Nat := (s.released.map (·.id)).count id

/-- Whether a method of an object runs. -/
def Busy (s : State) (id : Nat) : Prop := ∃ o ∈ s.objects, o.id = id ∧ o.busy = true

/-- An object that was made is in use or has been given up, and not both. -/
theorem Accounted.count_object (h : s.Accounted) {id : Nat} (hid : id < s.nextId) :
    (s.objects.map (·.id)).count id + s.destroyed id = 1 := by
  have hcount := h.count_eq id
  rwa [List.map_append, List.count_append, List.nodup_range.count, if_pos (List.mem_range.mpr hid)] at hcount

theorem accounted_of_ids (ho : t.objects.map (·.id) = s.objects.map (·.id)) (hr : t.released = s.released)
    (hn : t.nextId = s.nextId) (h : s.Accounted) : t.Accounted := by
  unfold Accounted at h ⊢
  rw [List.map_append] at h ⊢
  rwa [ho, hr, hn]

theorem accounted_swept (h : s.Accounted) (held : List Value) : (Heap.swept held s).Accounted := by
  unfold Heap.swept
  split
  · exact h
  · rw [List.partition_eq_filter_filter]
    refine List.Perm.trans (List.Perm.map _ ?_) h
    have hparts := List.filter_append_perm (Heap.isLive s held) s.objects
    rw [← List.append_assoc]
    exact (((List.reverse_perm _).append_left _).trans hparts).append_right _

theorem accounted_build (h : s.Accounted) (n : NativeType) (contents : Instance) (disk : Disk) :
    (s.build n contents disk).Accounted := by
  have hnew : ((s.objects ++ [Object.mk s.nextId n contents false]) ++ s.released).Perm
      ((s.objects ++ s.released) ++ [Object.mk s.nextId n contents false]) := by
    simp only [List.append_assoc]
    exact List.perm_append_comm.append_left _
  refine (hnew.map _).trans ?_
  rw [List.map_append, show (s.build n contents disk).nextId = s.nextId + 1 from rfl, List.range_succ]
  exact h.append_right _

end State

namespace Heap

variable {s : State} {held : List Value} {o : Object}

theorem mem_swept : o ∈ (swept held s).objects ↔ o ∈ s.objects ∧ isLive s held o = true := by
  unfold swept
  split
  · rename_i he
    rw [List.isEmpty_iff.mp he]
    simp
  · simp [List.partition_eq_filter_filter]

end Heap

namespace Trail

variable {L : Licence} {D : String → Prop} {s t : State}

/-- No step loses or doubles an object. -/
theorem accounted (h : Trail L D s t) (hs : s.Accounted) : t.Accounted := by
  induction h with
  | refl => exact hs
  | trans _ _ ih₁ ih₂ => exact ih₂ (ih₁ hs)
  | write _ _ _ => exact hs
  | declare _ => exact hs
  | nest _ ih => exact ih hs
  | sweep => exact State.accounted_swept hs _
  | build _ => exact State.accounted_build hs _ _ _
  | keep => exact State.accounted_of_ids (Heap.ids_map (fun o => by split <;> rfl) _) rfl rfl hs
  | busy _ ih =>
    refine State.accounted_of_ids (Heap.ids_marked _ false _) rfl rfl (ih ?_)
    exact State.accounted_of_ids (Heap.ids_marked _ true _) rfl rfl hs
  | aside hb => exact State.accounted_of_ids (congrArg _ hb.objects) hb.released hb.nextId hs

/-- Objects that are busy after a run were busy before. -/
theorem busy_before (h : Trail L D s t) {id : Nat} (hb : t.Busy id) : s.Busy id := by
  induction h with
  | refl | write | declare => exact hb
  | trans _ _ ih₁ ih₂ => exact ih₁ (ih₂ hb)
  | nest _ ih => exact ih hb
  | @sweep _ s held =>
    obtain ⟨o, ho, hid⟩ := hb
    exact ⟨o, (Heap.mem_swept.mp ho).1, hid⟩
  | build _ =>
    obtain ⟨o, ho, hid, hbusy⟩ := hb
    rcases List.mem_append.mp ho with ho | ho
    · exact ⟨o, ho, hid, hbusy⟩
    · rw [List.mem_singleton.mp ho] at hbusy
      cases hbusy
  | @keep _ s n contents =>
    obtain ⟨o, ho, hid, hbusy⟩ := hb
    obtain ⟨o', ho', rfl⟩ := List.mem_map.mp ho
    refine ⟨o', ho', ?_, ?_⟩
    · split at hid <;> exact hid
    · split at hbusy <;> exact hbusy
  | @busy _ s t n _ ih =>
    obtain ⟨o, ho, hid, hbusy⟩ := hb
    obtain ⟨o', ho', rfl⟩ := List.mem_map.mp ho
    split at hid
    · -- The object itself is free at the end.
      rename_i hn
      rw [if_pos hn] at hbusy
      cases hbusy
    · rename_i hn
      rw [if_neg hn] at hbusy
      obtain ⟨o, ho, hid', hbusy⟩ := ih ⟨o', ho', hid, hbusy⟩
      obtain ⟨o'', ho'', rfl⟩ := List.mem_map.mp ho
      split at hid'
      · rename_i hn'
        exact absurd (hid.trans (hid'.symm.trans hn')) hn
      · rename_i hn'
        rw [if_neg hn'] at hbusy
        exact ⟨o'', ho'', hid', hbusy⟩
  | aside hb' =>
    obtain ⟨o, ho, hid⟩ := hb
    exact ⟨o, hb'.objects ▸ ho, hid⟩

end Trail

/-! ## Between steps -/

namespace State

variable {s t : State}

/-- All objects of variables are there, each object is accounted for, and no method runs. -/
structure Orderly (s : State) : Prop where
  whole : s.Whole
  accounted : s.Accounted
  free : ∀ id, ¬s.Busy id

/-- Moreover, variables refer to each object that is there. -/
structure Settled (s : State) : Prop extends Orderly s where
  referenced : ∀ o ∈ s.objects, o.id ∈ s.references

/-- States to which some objects have been added from outside. -/
inductive Supplied (s : State) : State → Prop where
  | none : Supplied s s
  | build {t : State} {n : NativeType} {contents : Instance} {disk : Disk} :
      Supplied s t → n.Relays → Supplied s (t.build n contents disk)

theorem Orderly.supplied (h : s.Orderly) (hst : s.Supplied t) : t.Orderly := by
  induction hst with
  | none => exact h
  | build _ hn ih =>
    refine ⟨ih.whole.build hn _ _, accounted_build ih.accounted _ _ _, fun id hb => ih.free id ?_⟩
    exact Trail.busy_before (.build (Licence.admits_any _) : Trail .any (fun _ => True) _ _) hb

/-- What no variable refers to is given up. -/
theorem Orderly.swept (h : s.Orderly) : (Heap.swept [] s).Settled := by
  have htrail : Trail .any (fun _ => True) s (Heap.swept [] s) := .sweep
  refine ⟨⟨Heap.whole_swept h.whole [], htrail.accounted h.accounted, fun id hb => h.free id (htrail.busy_before hb)⟩, ?_⟩
  intro o ho
  obtain ⟨hmem, hlive⟩ := Heap.mem_swept.mp ho
  have hfree : o.busy = false := Bool.eq_false_iff.mpr fun hb => h.free o.id ⟨o, hmem, rfl, hb⟩
  have hreferenced : o.id ∈ s.references := by simpa [Heap.isLive, hfree, Value.referencesAll] using hlive
  rwa [references, Heap.scopes_swept]

/-- A step ends in order, whether it fails or not. -/
theorem Orderly.step {α : Type} {x : Run α} {ws : α → List Value} (h : s.Orderly) (vs : List Value)
    (hv : s.Provides vs) (hx : Retains [] vs x ws) (ht : Traces .any (fun _ => True) x fun _ => True) :
    (Session.step x s).2.Settled := by
  have hends := hx s h.whole (by rwa [List.append_nil])
  have htrail := ht s (Licence.allNative_any s)
  have hsettled : ∀ t : State, t.Whole → Trail .any (fun _ => True) s t → (Heap.swept [] t).Settled := fun t hw hst =>
    Orderly.swept ⟨hw, hst.accounted h.accounted, fun id hb => h.free id (hst.busy_before hb)⟩
  unfold Ends at hends htrail
  unfold Session.step
  cases hxs : x s with
  | ok a t =>
    rw [hxs] at hends htrail
    exact hsettled t hends.1 htrail.1
  | error e t =>
    rw [hxs] at hends htrail
    exact hsettled t hends.1 htrail

theorem Settled.script (h : s.Settled) (passes : Nat) (p : Program) :
    (Session.step (p.exec passes) s).2.Settled :=
  h.step [] (List.forall_mem_nil _) (Program.retains_exec passes p) (Program.traces_exec passes p)

end State

namespace Session

/-- The states between the steps of a session. Values that are defined or stored from outside refer to objects
that are there. -/
inductive Reached : State → Prop where
  | fresh (engine : Pattern.Engine) (random : Random) (input : List UInt8) (disk : Disk) :
    Reached (State.fresh engine random input disk)
  | register {s : State} (t : NativeType) : t.Relays → Reached s → Reached (s.register t)
  | stop {s : State} (b : Bool) : Reached s → Reached { s with stopped := b }
  | run {s : State} (passes : Nat) (source : String) : Reached s → Reached (Session.run passes source s).2
  | exec {s : State} (passes : Nat) (source : String) : Reached s → Reached (Session.exec passes source s).2
  | tree {s : State} (passes : Nat) (p : Program) : Reached s → Reached (step (p.exec passes) s).2
  | importType {s : State} (line : Nat) (name : String) : Reached s → Reached (Session.importType line name s).2
  | define {s t : State} (name : String) (v : Value) :
      Reached s → s.Supplied t → v.Within t.Has → Reached (Session.define name v t)
  | store {s t : State} (line : Nat) (name : String) (v : Value) :
      Reached s → s.Supplied t → v.Within t.Has → Reached (Session.store line name v t).2

theorem Reached.settled {s : State} (h : Reached s) : s.Settled := by
  induction h with
  | fresh engine random input disk =>
    refine ⟨⟨⟨State.relays_fresh engine random input disk, fun scope hscope => ?_⟩, .nil, nofun⟩, nofun⟩
    rw [List.mem_singleton.mp hscope]
    nofun
  | @register s t ht _ ih =>
    have hnatives : (s.register t).AllNative NativeType.Relays := by
      refine ⟨List.forall_mem_cons.mpr ⟨ht, fun n hn => ?_⟩, ih.whole.natives.objects⟩
      exact ih.whole.natives.types n (List.mem_filter.mp hn).1
    exact ⟨⟨⟨hnatives, ih.whole.slots⟩, ih.accounted, ih.free⟩, ih.referenced⟩
  | stop b _ ih =>
    exact ⟨⟨⟨ih.whole.natives.same rfl rfl, ih.whole.slots⟩, ih.accounted, ih.free⟩, ih.referenced⟩
  | @run s passes source _ ih =>
    unfold Session.run
    split
    · exact ih
    · split
      · exact ih
      · exact ih.script passes _
  | @exec s passes source _ ih =>
    unfold Session.exec
    split
    · exact ih
    · exact ih.script passes _
  | tree passes p _ ih => exact ih.script passes p
  | importType line name _ ih => exact ih.step [] (List.forall_mem_nil _) quiet_importType.retains quiet_importType.traces
  | define name v _ hst hv ih =>
    have hretains : Retains [] [v] (Run.define name v) fun _ => [v] := retains_define fun _ hK => hK v List.mem_cons_self
    exact (ih.supplied hst).step [v] (List.forall_mem_singleton.mpr hv) hretains (traces_define trivial)
  | store line name v _ hst hv ih =>
    have hretains : Retains [] [v] (Run.store line name v) fun _ => [v] := retains_store fun _ hK => hK v List.mem_cons_self
    exact (ih.supplied hst).step [v] (List.forall_mem_singleton.mpr hv) hretains (traces_store trivial)

/-- An instance is given up exactly once, and not before the last alias of it is gone from the variables. -/
theorem objects_held {s : State} (h : Reached s) (id : Nat) (hid : id < s.nextId) :
    ((∃ place, s.AliasAt id place) → s.destroyed id = 0 ∧ ∃ o, Heap.find? s id = some o) ∧
      ((¬∃ place, s.AliasAt id place) → s.destroyed id = 1) ∧
      ∃ places : List (List Nat), places.Nodup ∧ (∀ place, place ∈ places ↔ s.AliasAt id place) ∧
        s.references.count id = places.length ∧
        ∀ line name slot native, s.scopes.find? name = some slot → slot.value = .object native id →
          aliases line name s = .ok places.length := by
  have hs := h.settled
  have hone := hs.accounted.count_object hid
  refine ⟨fun hp => ?_, fun hp => ?_, s.places id, s.nodup_places, fun _ => s.mem_places, s.length_places.symm, ?_⟩
  · have hhas := hs.whole.has (State.mem_references_iff.mpr hp)
    have hpos := List.count_pos_iff.mpr (State.has_iff.mp hhas)
    exact ⟨by omega, State.find?_of_has hhas⟩
  · have hno : id ∉ s.objects.map (·.id) := fun hmem => by
      obtain ⟨o, ho, rfl⟩ := List.mem_map.mp hmem
      exact hp (State.mem_references_iff.mp (hs.referenced o ho))
    have hzero := List.count_eq_zero.mpr hno
    omega
  · intro line name slot native hf hv
    have hlookup : lookup line name s = .ok slot.value := by rw [lookup, step, lookup_of_find hf]
    rw [s.length_places, aliases, hlookup, hv]
    rfl

/-- Two instances: `a` and `c` hold one, and a collection held the other, until it was overwritten. -/
theorem objects_held_overwritten :
    let p : Program :=
      [.load 1 "csv", .declare 2 "a" (.call 2 "csv" []), .declare 3 "b" (.collection 3 [.var 3 "a", .var 3 "a"]),
        .declare 4 "a" (.call 4 "csv" []), .declare 5 "c" (.var 5 "a")]
    let s := (step (Program.exec 1 p) (State.fresh .bundled ⟨[], 0, []⟩ [] ⟨[], []⟩)).2
    let t := (store 6 "b" (.null Ty.untyped) s).2
    Reached s ∧ 0 < s.nextId ∧ s.destroyed 0 = 0 ∧
      Reached t ∧ 1 < t.nextId ∧ t.destroyed 0 = 1 ∧ t.destroyed 1 = 0 ∧ aliases 7 "c" t = .ok 2 := by
  intro p s t
  have hs : Reached s := .tree 1 p (.fresh _ _ _ _)
  have ht : Reached t := .store 6 "b" _ hs .none (Value.within_bare rfl)
  obtain ⟨hfirst, -, -⟩ := objects_held hs 0 (by decide)
  obtain ⟨-, hgone, -⟩ := objects_held ht 0 (by decide)
  obtain ⟨hsecond, -, places, -, -, hcount, haliases⟩ := objects_held ht 1 (by decide)
  have htwo : places.length = 2 := by
    rw [← hcount]
    decide
  have hnone : ¬∃ place, t.AliasAt 0 place := by
    rw [← State.mem_references_iff]
    decide
  refine ⟨hs, by decide, (hfirst ⟨[0, 1, 0], "csv", rfl⟩).1, ht, by decide, hgone hnone, (hsecond ⟨[0, 0], "csv", rfl⟩).1, ?_⟩
  rw [← htwo]
  exact haliases 7 "c" ⟨.object "csv", .object "csv" 1⟩ "csv" rfl rfl

end Session
end Crunch
