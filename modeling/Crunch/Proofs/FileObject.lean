import Crunch.Proofs.Count
import Crunch.Proofs.Lifetime
import Crunch.Proofs.OpenFile
import Mathlib

/-!
# Crunch.Proofs.FileObject

File objects of a running script.

* `State.Hosts`, `State.FileAt`: a file among the objects, at a stage, with a path that no other object touches.
* `OpenFile.ends_call`, `OpenFile.call_write` and the like: what each method answers, and the stage after it.
* `OpenFile.Course`: the states after some uses of a file, with other steps in between that leave it alone.
  `OpenFile.Course.fileAt` is the invariant that they keep.
* `OpenFile.content_swept`: a file that is given up holds what has been written.
* `OpenFile.carries_text`: what a script writes is what the disk holds, and what a file holds is what a script reads.
-/

namespace Crunch

open Run

/-- An object that leaves what is at a path as it is when it is given up. -/
def Object.Spares (o : Object) (p : Path) : Prop := ∀ d, (o.native.destroy o.contents d).node? p = d.node? p

namespace State

/-- No other object than one touches what is at a path. -/
def Alone (s : State) (id : Nat) (p : Path) : Prop := ∀ o ∈ s.objects, o.id ≠ id → o.Spares p

variable {s : State} {id : Nat} {p : Path}

/-- A change of the object itself does not matter. -/
theorem Alone.changed (h : s.Alone id p) {g : Object → Object} (hg : ∀ o, (g o).id = o.id) :
    State.Alone { s with objects := s.objects.map fun o => if o.id = id then g o else o } id p := by
  intro o ho hne
  obtain ⟨o', ho', rfl⟩ := List.mem_map.mp ho
  split at hne
  · rename_i he
    exact absurd ((hg o').trans he) hne
  · rename_i he
    rw [if_neg he]
    exact h o' ho' he

/-- Of the objects of every script, only files touch a path that they write to. -/
theorem alone_of_elsewhere (hbundled : ∀ o ∈ s.objects, o.native = Csv.nativeType ∨ o.native = OpenFile.nativeType)
    (h : ∀ o ∈ s.objects, o.id ≠ id → ∀ f w, o.contents = .file f → f.handle = some (.writer w) → w.path ≠ p) :
    s.Alone id p := by
  intro o ho hne d
  rcases hbundled o ho with hn | hn
  · rw [hn]
    rfl
  · rw [hn]
    cases hcontents : o.contents with
    | file f => exact OpenFile.node?_abandon (h o ho hne f · hcontents) d
    | _ => rfl

theorem Accounted.nodup_ids (h : s.Accounted) : (s.objects.map (·.id)).Nodup := by
  have hall : ((s.objects ++ s.released).map (·.id)).Nodup := h.nodup_iff.mpr List.nodup_range
  rw [List.map_append] at hall
  exact (List.nodup_append.mp hall).1

theorem Accounted.find? (h : s.Accounted) {o : Object} (ho : o ∈ s.objects) : Heap.find? s o.id = some o := by
  have hids := h.nodup_ids
  unfold Heap.find?
  generalize s.objects = os at ho hids
  induction os with
  | nil => cases ho
  | cons o' os ih =>
    obtain ⟨hnot, hids⟩ := List.nodup_cons.mp hids
    rcases List.mem_cons.mp ho with rfl | ho
    · exact List.find?_cons_of_pos (beq_self_eq_true o.id)
    · have hne : o'.id ≠ o.id := fun he => hnot (List.mem_map.mpr ⟨o, ho, he.symm⟩)
      rw [List.find?_cons_of_neg (by simpa using hne)]
      exact ih ho hids

end State

namespace Heap

variable {s : State} {held : List Value} {p : Path}

theorem node?_destroyed {os : List Object} (h : ∀ o ∈ os, o.Spares p) (d : Disk) :
    (os.foldl (fun d o => o.native.destroy o.contents d) d).node? p = d.node? p := by
  induction os generalizing d with
  | nil => rfl
  | cons o os ih =>
    rw [List.foldl_cons, ih fun o' ho' => h o' (List.mem_cons_of_mem _ ho')]
    exact h o List.mem_cons_self d

/-- Among objects that leave a path alone but for one, it is that one that counts. -/
theorem node?_destroyed_once {os : List Object} {o : Object} (ho : o ∈ os) (hids : (os.map (·.id)).Nodup)
    (hothers : ∀ o' ∈ os, o'.id ≠ o.id → o'.Spares p) (d : Disk) :
    ∃ d', d'.node? p = d.node? p ∧
      (os.foldl (fun d o => o.native.destroy o.contents d) d).node? p = (o.native.destroy o.contents d').node? p := by
  obtain ⟨before, behind, rfl⟩ := List.append_of_mem ho
  rw [List.map_append, List.map_cons] at hids
  obtain ⟨-, hcons, hapart⟩ := List.nodup_append.mp hids
  have hbefore : ∀ o' ∈ before, o'.Spares p := fun o' ho' =>
    hothers o' (List.mem_append_left _ ho') (hapart o'.id (List.mem_map.mpr ⟨o', ho', rfl⟩) o.id List.mem_cons_self)
  have hbehind : ∀ o' ∈ behind, o'.Spares p := fun o' ho' =>
    hothers o' (List.mem_append_right _ (List.mem_cons_of_mem _ ho')) fun he =>
      (List.nodup_cons.mp hcons).1 (List.mem_map.mpr ⟨o', ho', he⟩)
  refine ⟨_, node?_destroyed hbefore d, ?_⟩
  rw [List.foldl_append, List.foldl_cons, node?_destroyed hbehind]

theorem disk_swept (held : List Value) (s : State) : (swept held s).disk =
    (s.objects.filter fun o => !isLive s held o).foldl (fun d o => o.native.destroy o.contents d) s.disk := by
  unfold swept
  split
  · rename_i hempty
    rw [List.isEmpty_iff.mp hempty]
    rfl
  · rw [List.partition_eq_filter_filter]
    rfl

theorem isLive_of_used {o : Object} (h : o.id ∈ s.references ∨ o.id ∈ Value.referencesAll held) :
    isLive s held o = true := by
  simp [isLive, or_assoc, h]

end Heap

namespace State.Alone

variable {s : State} {held : List Value} {id : Nat} {p : Path}

theorem swept (h : s.Alone id p) (held : List Value) : (Heap.swept held s).Alone id p :=
  fun o ho => h o (Heap.mem_swept.mp ho).1

theorem node?_swept (h : s.Alone id p) (hid : id ∈ s.references ∨ id ∈ Value.referencesAll held) :
    (Heap.swept held s).disk.node? p = s.disk.node? p := by
  rw [Heap.disk_swept]
  refine Heap.node?_destroyed (fun o ho => ?_) s.disk
  obtain ⟨hmem, hdead⟩ := List.mem_filter.mp ho
  refine h o hmem ?_
  rintro rfl
  rw [Heap.isLive_of_used hid] at hdead
  cases hdead

end State.Alone

/-! ## Steps of a method -/

/-- The variables once a value has been stored into the one that an argument is read from, unless that fails. -/
def Argument.stored? (into : Argument) (v : Value) (ss : Scopes Slot) : Option (Scopes Slot) := do
  let name ← into.origin
  let slot ← ss.find? name
  let slot ← (slot.store v).toOption
  return ss.update name slot

namespace Heap

variable {s : State}

section
variable {line id : Nat} {callee : Call} {Q : Value → State → Prop} {E : Halt Fault → State → Prop}

@[simp] theorem ends_perform_done {v : Value} : Ends (perform line callee id (.done v)) s Q E ↔ Q v s := Iff.rfl

@[simp] theorem ends_perform_fail {c : Fault.Cause} :
    Ends (perform line callee id (.fail c)) s Q E ↔ E (.error ⟨line, c⟩) s := Iff.rfl

@[simp] theorem ends_perform_keep {i : Instance} {next : Action} :
    Ends (perform line callee id (.keep i next)) s Q E ↔ Ends (perform line callee id next) (s.keep id i) Q E := by
  rw [perform, ends_bind, update, ends_modify]
  rfl

@[simp] theorem ends_perform_look {next : Disk → Action} :
    Ends (perform line callee id (.look next)) s Q E ↔ Ends (perform line callee id (next s.disk)) s Q E := by
  rw [perform, ends_bind, ends_get]

@[simp] theorem ends_perform_write {d : Disk} {next : Action} :
    Ends (perform line callee id (.write d next)) s Q E ↔
      Ends (perform line callee id next) { s with disk := d } Q E := by
  rw [perform, ends_bind, ends_modify]

theorem ends_perform_store {into : Argument} {v : Value} {next : Except Fault.Cause Unit → Action}
    (hok : ∀ ss, into.stored? v s.scopes = some ss →
      Ends (perform line callee id (next (.ok ()))) { s with scopes := ss } Q E)
    (herror : into.stored? v s.scopes = none → ∀ c, Ends (perform line callee id (next (.error c))) s Q E) :
    Ends (perform line callee id (.store into v next)) s Q E := by
  simp only [perform]
  cases horigin : into.origin with
  | none => exact herror (by simp [Argument.stored?, horigin]) _
  | some name =>
    refine ends_bind.mpr (ends_outcome.mpr (ends_store.mpr ⟨fun slot hslot => ⟨?_, ?_⟩, ?_⟩))
    · intro slot' hstore
      exact hok _ (by simp [Argument.stored?, horigin, hslot, hstore, Except.toOption])
    · intro c hstore
      exact herror (by simp [Argument.stored?, horigin, hslot, hstore, Except.toOption]) _
    · intro hnone
      exact herror (by simp [Argument.stored?, horigin, hnone]) _

end

end Heap

/-! ## A file among the objects -/

/-- A state with a file at a stage, whose path no other object touches. -/
structure State.Hosts (s : State) (id : Nat) (p : Path) (f : OpenFile) (stage : OpenFile.Stage) (busy : Bool) :
    Prop where
  mem : Object.mk id OpenFile.nativeType (.file f) busy ∈ s.objects
  stands : f.Stands p s.disk stage
  alone : s.Alone id p
  accounted : s.Accounted

namespace State.Hosts

variable {s : State} {id : Nat} {p : Path} {f f' : OpenFile} {stage stage' : OpenFile.Stage} {b : Bool} {d : Disk}

theorem swept {held : List Value} (h : s.Hosts id p f stage b)
    (hid : id ∈ s.references ∨ id ∈ Value.referencesAll held) : (Heap.swept held s).Hosts id p f stage b where
  mem := Heap.mem_swept.mpr ⟨h.mem, Heap.isLive_of_used hid⟩
  stands := h.stands.congr (h.alone.node?_swept hid)
  alone := h.alone.swept held
  accounted := accounted_swept h.accounted held

theorem marked (h : s.Hosts id p f stage b) (b' : Bool) : (Heap.marked id b' s).Hosts id p f stage b' where
  mem := List.mem_map.mpr ⟨_, h.mem, if_pos rfl⟩
  stands := h.stands
  alone := h.alone.changed (g := fun o => { o with busy := b' }) fun _ => rfl
  accounted := accounted_of_ids (Heap.ids_marked id b' s) rfl rfl h.accounted

/-- What a method does to its file and to the disk. -/
theorem kept (h : s.Hosts id p f stage b) (hstands : f'.Stands p d stage') :
    State.Hosts { s.keep id (.file f') with disk := d } id p f' stage' b where
  mem := List.mem_map.mpr ⟨_, h.mem, if_pos rfl⟩
  stands := hstands
  alone := h.alone.changed (g := fun o => { o with contents := .file f' }) fun _ => rfl
  accounted := accounted_of_ids (Heap.ids_map (fun o => by split <;> rfl) s.objects) rfl rfl h.accounted

theorem withScopes (h : s.Hosts id p f stage b) (ss : Scopes Slot) :
    State.Hosts { s with scopes := ss } id p f stage b := ⟨h.mem, h.stands, h.alone, h.accounted⟩

end State.Hosts

/-- A state with a file that a script has opened by a path. -/
def State.FileAt (s : State) (id : Nat) (path : String) (p : Path) (stage : OpenFile.Stage) : Prop :=
  ∃ f : OpenFile, f.path = path ∧ s.Hosts id p f stage false

/-! ## Calls of its methods -/

namespace OpenFile

/-- A call of a method. -/
inductive Use where
  | readLine (into : Argument)
  | write (text : String) (origin : Option String)
  | flush
  | close
  | isOpen

namespace Use

def name : Use → String
  | readLine _ => "readln"
  | write _ _ => "write"
  | flush => "flush"
  | close => "close"
  | isOpen => "isopen"

def number : Use → Nat
  | readLine _ => 0
  | write _ _ => 1
  | flush => 2
  | close => 3
  | isOpen => 4

def args : Use → List Argument
  | readLine into => [into]
  | write text origin => [⟨.literal text, origin⟩]
  | flush | close | isOpen => []

/-- The call on the file object of a number. -/
def call (line : Nat) (held : List Value) (id : Nat) (u : Use) : Run Value :=
  callObject line held interface.name id u.name u.args

theorem findMethod?_name (u : Use) : ∃ m, interface.findMethod? u.name u.args.length = some (u.number, m) := by
  cases u <;> exact ⟨_, rfl⟩

end Use

variable {s : State} {id : Nat} {p : Path} {f : OpenFile} {stage : Stage} {line : Nat} {held : List Value}
  {Q : Value → State → Prop} {E : Halt Fault → State → Prop}

/-- A call runs the method on the file, which stays busy meanwhile. -/
theorem ends_call (h : s.Hosts id p f stage false) (u : Use)
    (hperform : ∀ callee t, t.Hosts id p f stage true → t.scopes = s.scopes →
      Ends (Heap.perform line callee id (f.invoke u.number u.args)) t
        (fun v t => Q v (Heap.marked id false t)) fun e t => E e (Heap.marked id false t)) :
    Ends (u.call line held id) s Q E := by
  obtain ⟨m, hm⟩ := u.findMethod?_name
  have hfind := h.accounted.find? h.mem
  have hused : id ∈ Value.referencesAll (.object interface.name id :: u.args.map (·.value) ++ held) := by
    rw [List.cons_append, Value.referencesAll]
    exact List.mem_append_left _ (List.mem_singleton.mpr rfl)
  have hswept := h.swept (.inr hused)
  have hfind' := hswept.accounted.find? hswept.mem
  unfold Use.call callObject Heap.invoke
  rw [ends_bind, ends_get, hfind]
  simp only [show nativeType.interface = interface from rfl, hm]
  rw [Heap.sweep, ends_bind, ends_modify, ends_bind, ends_get, Heap.invokeTo, ends_bind, ends_get, hfind']
  simp only [Bool.false_eq_true, if_false]
  rw [Heap.ends_whileBusy]
  exact hperform _ _ (hswept.marked true) (Heap.scopes_swept _ s)

variable {path : String}

theorem call_refused {u : Use} {c : Fault.Cause} (h : s.FileAt id path p stage)
    (hinvoke : ∀ f d, f.path = path → Stands f p d stage → f.invoke u.number u.args = .fail c) :
    ∃ t, u.call line held id s = .error (.error ⟨line, c⟩) t ∧ t.FileAt id path p stage := by
  obtain ⟨f, hpath, hhosts⟩ := h
  refine error_of_ends (ends_call hhosts u fun callee t ht _ => ?_)
  rw [hinvoke f t.disk hpath ht.stands, Heap.ends_perform_fail]
  exact ⟨rfl, f, hpath, ht.marked false⟩

/-- A use that flushes or closes a file. -/
theorem call_finished {u : Use} {op : OpenFile → Disk → Except OsError (Bool × OpenFile × Disk)} {stage' : Stage}
    {b : Bool} {D : Disk → Prop} (h : s.FileAt id path p stage)
    (hinvoke : ∀ f : OpenFile, f.invoke u.number u.args = .look fun d => finish f.path (op f d))
    (hop : ∀ {f d}, Stands f p d stage →
      ∃ f' d', op f d = .ok (b, f', d') ∧ f'.path = f.path ∧ f'.Stands p d' stage' ∧ D d') :
    ∃ t, u.call line held id s = .ok (.boolean b) t ∧ t.FileAt id path p stage' ∧ D t.disk := by
  obtain ⟨f, hpath, hhosts⟩ := h
  refine ok_of_ends (ends_call hhosts u fun callee t ht _ => ?_)
  obtain ⟨f', d', hdone, hpath', hstands, hd⟩ := hop ht.stands
  rw [hinvoke f, Heap.ends_perform_look, hdone, finish, Heap.ends_perform_keep, Heap.ends_perform_write,
    Heap.ends_perform_done]
  exact ⟨rfl, ⟨f', hpath'.trans hpath, (ht.kept hstands).marked false⟩, hd⟩

/-- A flush tells whether the file is open. Everything written has reached the file then. -/
theorem call_flush (h : s.FileAt id path p stage) :
    ∃ t, Use.flush.call line held id s = .ok (.boolean stage.isOpen) t ∧ t.FileAt id path p stage ∧
      ∀ bytes, stage = .writing bytes → t.disk.node? p = some (.file bytes) :=
  call_finished (D := fun d => ∀ bytes, stage = .writing bytes → d.node? p = some (.file bytes)) h (fun _ => rfl)
    Stands.flush

theorem call_close (h : s.FileAt id path p stage) :
    ∃ t, Use.close.call line held id s = .ok (.boolean stage.isOpen) t ∧ t.FileAt id path p .closed ∧
      ∀ bytes, stage = .writing bytes → t.disk.node? p = some (.file bytes) :=
  call_finished (D := fun d => ∀ bytes, stage = .writing bytes → d.node? p = some (.file bytes)) h (fun _ => rfl)
    Stands.close

theorem call_isOpen (h : s.FileAt id path p stage) :
    ∃ t, Use.isOpen.call line held id s = .ok (.boolean stage.isOpen) t ∧ t.FileAt id path p stage := by
  obtain ⟨f, hpath, hhosts⟩ := h
  refine ok_of_ends (ends_call hhosts .isOpen fun callee t ht _ => ?_)
  have hinvoke : f.invoke Use.isOpen.number Use.isOpen.args = .done (.boolean f.handle.isSome) := rfl
  rw [hinvoke, ht.stands.isSome_handle, Heap.ends_perform_done]
  exact ⟨rfl, f, hpath, ht.marked false⟩

/-- A write counts the bytes of its text, which come after those before it. -/
theorem call_write {bytes : List UInt8} (h : s.FileAt id path p (.writing bytes)) (text : String)
    (origin : Option String) :
    ∃ t, (Use.write text origin).call line held id s = .ok (.integer (lengthOf text.utf8ByteSize)) t ∧
      t.FileAt id path p (.writing (bytes ++ Utf8.encode text)) := by
  obtain ⟨f, hpath, hhosts⟩ := h
  refine ok_of_ends (ends_call hhosts (.write text origin) fun callee t ht _ => ?_)
  obtain ⟨w, hw, hp, hholds⟩ := ht.stands
  obtain ⟨w', d', hwrite, hp', hholds'⟩ := Writer.write_holds hholds (Utf8.encode text)
  have hstands : Stands { f with handle := some (.writer w') } p d' (.writing (bytes ++ Utf8.encode text)) :=
    ⟨w', rfl, hp'.trans hp, hholds'⟩
  have hinvoke : f.invoke (Use.write text origin).number (Use.write text origin).args = f.writeText text := rfl
  rw [hinvoke, writeText, hw, Heap.ends_perform_look]
  simp only [hwrite]
  rw [Heap.ends_perform_keep, Heap.ends_perform_write, Heap.ends_perform_done]
  exact ⟨rfl, { f with handle := some (.writer w') }, hpath, (ht.kept hstands).marked false⟩

theorem call_write_refused (h : s.FileAt id path p stage) (hstage : ∀ bytes, stage ≠ .writing bytes) (text : String)
    (origin : Option String) :
    ∃ t, (Use.write text origin).call line held id s =
        .error (.error ⟨line, interface.refuse (path ++ " is not open for writing")⟩) t ∧
      t.FileAt id path p stage := by
  refine call_refused h fun f d hpath hstands => ?_
  have hinvoke : f.invoke (Use.write text origin).number (Use.write text origin).args = f.writeText text := rfl
  rw [hinvoke, writeText, hpath]
  cases stage with
  | writing bytes => exact absurd rfl (hstage bytes)
  | reading rest =>
    obtain ⟨r, hr, -⟩ := hstands
    rw [hr]
    rfl
  | closed =>
    rw [show f.handle = none from hstands]
    rfl

theorem call_readLine_refused (h : s.FileAt id path p stage) (hstage : ∀ rest, stage ≠ .reading rest)
    (into : Argument) :
    ∃ t, (Use.readLine into).call line held id s =
        .error (.error ⟨line, interface.refuse (path ++ " is not open for reading")⟩) t ∧
      t.FileAt id path p stage := by
  refine call_refused h fun f d hpath hstands => ?_
  have hinvoke : f.invoke (Use.readLine into).number (Use.readLine into).args = f.readLine into := rfl
  rw [hinvoke, readLine, hpath]
  cases stage with
  | reading rest => exact absurd rfl (hstage rest)
  | writing bytes =>
    obtain ⟨w, hw, -⟩ := hstands
    rw [hw]
    rfl
  | closed =>
    rw [show f.handle = none from hstands]
    rfl

theorem ends_readLine {rest : List Char} (h : s.FileAt id path p (.reading rest)) (into : Argument)
    (hlast : Text.lines rest = [] → ∀ t, t.FileAt id path p (.reading (Text.cut rest).2) → t.scopes = s.scopes →
      Q (.boolean false) t)
    (hnext : ∀ l ls, Text.lines rest = l :: ls → ∀ ss, into.stored? (.literal (String.ofList l)) s.scopes = some ss →
      ∀ t, t.FileAt id path p (.reading (Text.cut rest).2) → t.scopes = ss → Q (.boolean true) t)
    (hfail : ∀ l ls, Text.lines rest = l :: ls → into.stored? (.literal (String.ofList l)) s.scopes = none →
      ∀ e t, t.FileAt id path p (.reading (Text.cut rest).2) → E e t) :
    Ends ((Use.readLine into).call line held id) s Q E := by
  obtain ⟨f, hpath, hhosts⟩ := h
  refine ends_call hhosts (.readLine into) fun callee t ht hscopes => ?_
  obtain ⟨r, hr, hp, hahead⟩ := ht.stands
  obtain ⟨r', hline, hp', hahead'⟩ := Reader.line_of_ahead hahead
  let f' : OpenFile := { f with handle := some (.reader r') }
  have hkept : (t.keep id (.file f')).Hosts id p f' (.reading (Text.cut rest).2) true :=
    ht.kept ⟨r', rfl, hp'.trans hp, hahead'⟩
  have hinvoke : f.invoke (Use.readLine into).number (Use.readLine into).args = f.readLine into := rfl
  rw [hinvoke, readLine, hr, Heap.ends_perform_look]
  simp only [hline]
  rw [Heap.ends_perform_keep]
  cases hlines : Text.lines rest with
  | nil => exact hlast hlines _ ⟨f', hpath, hkept.marked false⟩ hscopes
  | cons l ls =>
    refine Heap.ends_perform_store (fun ss hss => ?_) fun hnone c => ?_
    · have hstored : into.stored? (.literal (String.ofList l)) s.scopes = some ss := hscopes ▸ hss
      exact hnext l ls hlines ss hstored _ ⟨f', hpath, (hkept.withScopes ss).marked false⟩ rfl
    · have hstored : into.stored? (.literal (String.ofList l)) s.scopes = none := hscopes ▸ hnone
      exact hfail l ls hlines hstored _ _ ⟨f', hpath, hkept.marked false⟩

/-! ## Opening and giving up -/

/-- Opens a path in the mode of a letter. -/
def opening (line : Nat) (held : List Value) (path letter : String) : Run Value :=
  Run.construct line held nativeType interface.name [.literal path, .literal letter]

/-- A new file has the next number, and is the only object at its path if all others spare it. -/
theorem fileAt_build {d : Disk} (hs : s.Accounted) (hspare : ∀ o ∈ s.objects, o.Spares p)
    (hstands : f.Stands p d stage) : (s.build nativeType (.file f) d).FileAt s.nextId f.path p stage := by
  refine ⟨f, rfl, List.mem_append_right _ (List.mem_singleton.mpr rfl), hstands, ?_, State.accounted_build hs _ _ _⟩
  intro o ho hne
  rcases List.mem_append.mp ho with ho | ho
  · exact hspare o ho
  · rw [List.mem_singleton.mp ho] at hne
    exact absurd rfl hne

theorem opening_ok {letter : String} {mode : Mode} (hs : s.Accounted)
    (hspare : ∀ o ∈ (Heap.swept held s).objects, o.Spares p) (hmode : mode? letter = .ok mode)
    (hopen : ∃ f d, open? path mode (Heap.swept held s).disk = .ok (f, d) ∧ f.path = path ∧ Stands f p d stage) :
    ∃ t, opening line held path letter s = .ok (.object interface.name s.nextId) t ∧
      t.FileAt s.nextId path p stage := by
  obtain ⟨f, d, hopen, rfl, hstands⟩ := hopen
  have hswept : Heap.swept ([.literal f.path, .literal letter] ++ held) s = Heap.swept held s := rfl
  have hnext : (Heap.swept held s).nextId = s.nextId := by
    unfold Heap.swept
    split <;> rfl
  have hconstructor : nativeType.interface.findConstructor? [Value.literal f.path, .literal letter].length = some 0 :=
    rfl
  have hconstruct : nativeType.construct 0 [.literal f.path, .literal letter] (Heap.swept held s).disk =
      .ok (.file f, d) := by
    change OpenFile.construct [.literal f.path, .literal letter] (Heap.swept held s).disk = .ok (.file f, d)
    simp only [OpenFile.construct, Value.literal?, bind, Except.bind, hmode, hopen]
    rfl
  refine ok_of_ends ?_
  unfold opening Run.construct
  rw [hconstructor]
  simp only [Heap.sweep, Heap.construct, ends_bind, ends_modify, ends_get, hswept, hconstruct, lift, ends_pure,
    ends_set]
  rw [← hnext]
  exact ⟨rfl, fileAt_build (State.accounted_swept hs held) hspare hstands⟩

/-- What has been written is in the file once the last reference to it is gone. -/
theorem content_swept {bytes : List UInt8} (h : s.FileAt id path p (.writing bytes)) (hs : id ∉ s.references)
    (hheld : id ∉ Value.referencesAll held) : (Heap.swept held s).disk.content p = .ok bytes := by
  obtain ⟨f, -, hhosts⟩ := h
  have hdead : Object.mk id nativeType (.file f) false ∈ s.objects.filter fun o => !Heap.isLive s held o :=
    List.mem_filter.mpr ⟨hhosts.mem, by simp [Heap.isLive, hs, hheld]⟩
  have hids : ((s.objects.filter fun o => !Heap.isLive s held o).map (·.id)).Nodup :=
    hhosts.accounted.nodup_ids.sublist (List.filter_sublist.map _)
  obtain ⟨d, hd, hgone⟩ := Heap.node?_destroyed_once hdead hids
    (fun o ho hne => hhosts.alone o (List.mem_filter.mp ho).1 hne) s.disk
  rw [Disk.content, Heap.disk_swept, hgone]
  have hnode : (nativeType.destroy (.file f) d).node? p = some (.file bytes) := (hhosts.stands.congr hd).abandon
  simp only [hnode]

/-! ## Uses one after another -/

/-- The stage after a call. -/
def Stage.after : Stage → Use → Stage
  | .writing bytes, .write text _ => .writing (bytes ++ Utf8.encode text)
  | .reading rest, .readLine _ => .reading (Text.cut rest).2
  | _, .close => .closed
  | stage, _ => stage

/-- A call leaves the file at the next stage, also when it fails. -/
theorem fileAt_after (h : s.FileAt id path p stage) (u : Use) :
    ((u.call line held id).after s).FileAt id path p (stage.after u) := by
  cases u with
  | readLine into =>
    cases stage with
    | reading rest =>
      refine (ends_after (P := fun t => t.FileAt id path p (.reading (Text.cut rest).2))).mp ?_
      refine ends_readLine h into ?_ ?_ ?_
      · exact fun _ t ht _ => ht
      · exact fun _ _ _ _ _ t ht _ => ht
      · exact fun _ _ _ _ _ t ht => ht
    | writing bytes =>
      obtain ⟨t, hcall, ht⟩ := call_readLine_refused h nofun into
      exact after_of_error hcall ▸ ht
    | closed =>
      obtain ⟨t, hcall, ht⟩ := call_readLine_refused h nofun into
      exact after_of_error hcall ▸ ht
  | write text origin =>
    cases stage with
    | writing bytes =>
      obtain ⟨t, hcall, ht⟩ := call_write h text origin
      exact after_of_ok hcall ▸ ht
    | reading rest =>
      obtain ⟨t, hcall, ht⟩ := call_write_refused h nofun text origin
      exact after_of_error hcall ▸ ht
    | closed =>
      obtain ⟨t, hcall, ht⟩ := call_write_refused h nofun text origin
      exact after_of_error hcall ▸ ht
  | flush =>
    obtain ⟨t, hcall, ht, -⟩ := call_flush h
    rw [after_of_ok hcall]
    cases stage <;> exact ht
  | close =>
    obtain ⟨t, hcall, ht, -⟩ := call_close h
    rw [after_of_ok hcall]
    cases stage <;> exact ht
  | isOpen =>
    obtain ⟨t, hcall, ht⟩ := call_isOpen h
    rw [after_of_ok hcall]
    cases stage <;> exact ht

/-- Steps in between that leave a file alone: neither its object changes nor what is at its path, and no object
that would touch the path comes up. -/
structure Undisturbed (id : Nat) (p : Path) (s t : State) : Prop where
  object : Heap.find? t id = Heap.find? s id
  node : t.disk.node? p = s.disk.node? p
  alone : t.Alone id p
  accounted : t.Accounted

/-- The states after some uses of a file, each with whatever outcome, and steps in between that leave it alone. -/
inductive Course (id : Nat) (p : Path) (s : State) : List Use → State → Prop where
  | start : Course id p s [] s
  | call {us : List Use} {t : State} (line : Nat) (held : List Value) (u : Use) :
      Course id p s us t → Course id p s (us ++ [u]) ((u.call line held id).after t)
  | aside {us : List Use} {t t' : State} : Course id p s us t → Undisturbed id p t t' → Course id p s us t'

variable {t : State} {us : List Use}

theorem Undisturbed.fileAt (h : Undisturbed id p s t) (hs : s.FileAt id path p stage) : t.FileAt id path p stage := by
  obtain ⟨f, hpath, hhosts⟩ := hs
  have hfind := h.object.trans (hhosts.accounted.find? hhosts.mem)
  exact ⟨f, hpath, List.mem_of_find?_eq_some hfind, hhosts.stands.congr h.node, h.alone, h.accounted⟩

/-- A sweep is such a step as long as the file is in use. -/
theorem undisturbed_swept (h : s.FileAt id path p stage) (hid : id ∈ s.references ∨ id ∈ Value.referencesAll held) :
    Undisturbed id p s (Heap.swept held s) := by
  obtain ⟨f, -, hhosts⟩ := h
  have hswept := hhosts.swept hid
  constructor
  · exact (hswept.accounted.find? hswept.mem).trans (hhosts.accounted.find? hhosts.mem).symm
  · exact hhosts.alone.node?_swept hid
  · exact hswept.alone
  · exact hswept.accounted

/-- The stage of a file is that of its uses. -/
theorem Course.fileAt (h : Course id p s us t) (hs : s.FileAt id path p stage) :
    t.FileAt id path p (us.foldl Stage.after stage) := by
  induction h with
  | start => exact hs
  | call line held u _ ih =>
    rw [List.foldl_append]
    exact fileAt_after ih u
  | aside _ hundisturbed ih => exact hundisturbed.fileAt ih

/-- The text of a write. -/
def Use.text? : Use → Option String
  | write text _ => some text
  | _ => none

/-- Whether a line is read. -/
def Use.isRead : Use → Bool
  | readLine _ => true
  | _ => false

/-- The bytes of everything that is written. -/
def Use.written (us : List Use) : List UInt8 := Utf8.encode (String.join (us.filterMap text?))

theorem foldl_closed (us : List Use) : us.foldl Stage.after .closed = .closed := by
  induction us with
  | nil => rfl
  | cons u us ih =>
    rw [List.foldl_cons]
    cases u <;> exact ih

theorem foldl_of_close (h : .close ∈ us) (stage : Stage) : us.foldl Stage.after stage = .closed := by
  obtain ⟨before, behind, rfl⟩ := List.append_of_mem h
  rw [List.foldl_append, List.foldl_cons]
  have hclosed : ∀ stage : Stage, stage.after .close = .closed := fun stage => by cases stage <;> rfl
  rw [hclosed, foldl_closed]

theorem Use.written_cons (u : Use) (us : List Use) :
    written (u :: us) = (match u.text? with | some text => Utf8.encode text | none => []) ++ written us := by
  cases u with
  | write text origin =>
    have htexts : (write text origin :: us).filterMap text? = text :: us.filterMap text? := rfl
    rw [written, htexts, String.join_cons, Utf8.encode_append]
    rfl
  | readLine _ | flush | close | isOpen => rfl

theorem foldl_writing (h : .close ∉ us) (bytes : List UInt8) :
    us.foldl Stage.after (.writing bytes) = .writing (bytes ++ Use.written us) := by
  induction us generalizing bytes with
  | nil =>
    have hnone : Use.written [] = [] := rfl
    rw [hnone, List.append_nil]
    rfl
  | cons u us ih =>
    have hus : .close ∉ us := fun hin => h (List.mem_cons_of_mem _ hin)
    rw [List.foldl_cons, Use.written_cons]
    cases u with
    | write text origin =>
      refine (ih hus _).trans ?_
      rw [List.append_assoc]
      rfl
    | close => exact absurd List.mem_cons_self h
    | readLine _ | flush | isOpen => exact ih hus bytes

theorem foldl_reading (h : .close ∉ us) (rest : List Char) :
    ∃ rest', us.foldl Stage.after (.reading rest) = .reading rest' ∧
      Text.lines rest' = (Text.lines rest).drop (us.countP Use.isRead) := by
  induction us generalizing rest with
  | nil => exact ⟨rest, rfl, rfl⟩
  | cons u us ih =>
    have hus : .close ∉ us := fun hin => h (List.mem_cons_of_mem _ hin)
    rw [List.foldl_cons]
    cases u with
    | readLine into =>
      obtain ⟨rest', hstage, hlines⟩ := ih hus (Text.cut rest).2
      refine ⟨rest', hstage, ?_⟩
      rw [hlines, Text.lines_cut, List.drop_tail, List.countP_cons_of_pos rfl]
    | close => exact absurd List.mem_cons_self h
    | write _ _ | flush | isOpen => exact ih hus rest

/-! ## What a script sees -/

/-- A file that is written to. A write gives the number of bytes, of which no machine can hold more than the
largest integer. However the writing ends, the file holds all bytes. -/
structure Delivers (s : State) (id : Nat) (p : Path) (bytes : List UInt8) : Prop where
  write (line : Nat) (held : List Value) (text : String) (origin : Option String) :
    ∃ n t, (Use.write text origin).call line held id s = .ok (.integer n) t ∧
      n.toInt = min (text.utf8ByteSize : Int) Decimal.maxInt
  flush (line : Nat) (held : List Value) :
    ∃ t, Use.flush.call line held id s = .ok (.boolean true) t ∧ t.disk.content p = .ok bytes
  close (line : Nat) (held : List Value) :
    ∃ t, Use.close.call line held id s = .ok (.boolean true) t ∧ t.disk.content p = .ok bytes
  release (held : List Value) :
    id ∉ s.references → id ∉ Value.referencesAll held → (Heap.swept held s).disk.content p = .ok bytes

/-- A file with some lines left. The next one goes into a variable, and no other variable changes. -/
structure Yields (s : State) (id : Nat) (ls : List (List Char)) : Prop where
  next (line : Nat) (held : List Value) (into : Argument) {l : List Char} {more : List (List Char)} {name : String}
      {slot : Slot} :
    ls = l :: more → into.origin = some name → s.scopes.find? name = some slot →
      slot.type = Ty.literal ∨ slot.type = Ty.untyped →
      ∃ t, (Use.readLine into).call line held id s = .ok (.boolean true) t ∧
        ∀ other, t.scopes.find? other =
          if other = name then some ⟨Ty.literal, .literal (String.ofList l)⟩ else s.scopes.find? other
  last (line : Nat) (held : List Value) (into : Argument) :
    ls = [] → ∃ t, (Use.readLine into).call line held id s = .ok (.boolean false) t ∧ t.scopes = s.scopes

/-- A file that is closed. -/
structure Shut (s : State) (id : Nat) (path : String) : Prop where
  isOpen (line : Nat) (held : List Value) : ∃ t, Use.isOpen.call line held id s = .ok (.boolean false) t
  write (line : Nat) (held : List Value) (text : String) (origin : Option String) :
    ∃ t, (Use.write text origin).call line held id s =
      .error (.error ⟨line, .native "file" (path ++ " is not open for writing")⟩) t
  readLine (line : Nat) (held : List Value) (into : Argument) :
    ∃ t, (Use.readLine into).call line held id s =
      .error (.error ⟨line, .native "file" (path ++ " is not open for reading")⟩) t
  flush (line : Nat) (held : List Value) : ∃ t, Use.flush.call line held id s = .ok (.boolean false) t
  close (line : Nat) (held : List Value) : ∃ t, Use.close.call line held id s = .ok (.boolean false) t

theorem delivers_of_writing {bytes : List UInt8} (h : s.FileAt id path p (.writing bytes)) : Delivers s id p bytes where
  write line held text origin := by
    obtain ⟨t, hcall, -⟩ := call_write h text origin
    exact ⟨_, t, hcall, toInt_lengthOf _⟩
  flush line held := by
    obtain ⟨t, hcall, -, hsent⟩ := call_flush h
    exact ⟨t, hcall, by rw [Disk.content, hsent bytes rfl]⟩
  close line held := by
    obtain ⟨t, hcall, -, hsent⟩ := call_close h
    exact ⟨t, hcall, by rw [Disk.content, hsent bytes rfl]⟩
  release held hs hheld := content_swept h hs hheld

theorem store_literal {slot : Slot} (h : slot.type = Ty.literal ∨ slot.type = Ty.untyped) (text : String) :
    slot.store (.literal text) = .ok ⟨Ty.literal, .literal text⟩ := by
  obtain ⟨type, value⟩ := slot
  rcases h with h | h
  · cases h
    rfl
  · cases h
    rfl

theorem yields_of_reading {rest : List Char} (h : s.FileAt id path p (.reading rest)) :
    Yields s id (Text.lines rest) where
  next line held into {l ls name slot} hlines horigin hslot htype := by
    have hstored : into.stored? (.literal (String.ofList l)) s.scopes =
        some (s.scopes.update name ⟨Ty.literal, .literal (String.ofList l)⟩) := by
      simp [Argument.stored?, horigin, hslot, store_literal htype, Except.toOption]
    obtain ⟨t, hcall, hscopes⟩ : ∃ t, (Use.readLine into).call line held id s = .ok (.boolean true) t ∧
        t.scopes = s.scopes.update name ⟨Ty.literal, .literal (String.ofList l)⟩ := by
      refine ok_of_ends (ends_readLine h _ ?_ ?_ ?_)
      · exact fun hnil => absurd (hnil.symm.trans hlines) nofun
      · intro l' ls' hlines' ss hss t _ hscopes
        cases hlines.symm.trans hlines'
        cases hstored.symm.trans hss
        exact ⟨rfl, hscopes⟩
      · intro l' ls' hlines' hnone
        cases hlines.symm.trans hlines'
        exact absurd (hstored.symm.trans hnone) nofun
    exact ⟨t, hcall, fun other => by rw [hscopes, Scopes.find?_update hslot]⟩
  last line held into hnil := by
    refine ok_of_ends (P := fun t => t.scopes = s.scopes) (ends_readLine h into ?_ ?_ ?_)
    · exact fun _ t _ hscopes => ⟨rfl, hscopes⟩
    · exact fun l ls hlines => absurd (hnil.symm.trans hlines) nofun
    · exact fun l ls hlines => absurd (hnil.symm.trans hlines) nofun

theorem shut_of_closed (h : s.FileAt id path p .closed) : Shut s id path where
  isOpen line held := by
    obtain ⟨t, hcall, -⟩ := call_isOpen h
    exact ⟨t, hcall⟩
  write line held text origin := by
    obtain ⟨t, hcall, -⟩ := call_write_refused h nofun text origin
    exact ⟨t, hcall⟩
  readLine line held into := by
    obtain ⟨t, hcall, -⟩ := call_readLine_refused h nofun into
    exact ⟨t, hcall⟩
  flush line held := by
    obtain ⟨t, hcall, -⟩ := call_flush h
    exact ⟨t, hcall⟩
  close line held := by
    obtain ⟨t, hcall, -⟩ := call_close h
    exact ⟨t, hcall⟩

/-- Files carry text over. On a disk that fails nowhere, with nobody else at the path, a file delivers what the disk
held, when it is opened to append, and all texts that are written, in order; and a file that is opened to read yields
the lines of the text that the disk holds, one after another, and nothing once they are used up. -/
theorem carries_text (line : Nat) {old : Option (List UInt8)} (hs : s.Accounted)
    (hspare : ∀ o ∈ (Heap.swept held s).objects, o.Spares p) (hleads : (Heap.swept held s).disk.Leads path p old) :
    (∀ letter base, letter = "w" ∧ base = [] ∨ letter = "a" ∧ base = old.getD [] →
      ∃ t, opening line held path letter s = .ok (.object "file" s.nextId) t ∧
        ∀ us u, Course s.nextId p t us u →
          (.close ∉ us → Delivers u s.nextId p (base ++ Use.written us)) ∧ (.close ∈ us → Shut u s.nextId path)) ∧
      ∀ text : String, old = some (Utf8.encode text) →
        ∃ t, opening line held path "r" s = .ok (.object "file" s.nextId) t ∧
          ∀ us u, Course s.nextId p t us u →
            (.close ∉ us → Yields u s.nextId ((Text.lines text.toList).drop (us.countP Use.isRead))) ∧
              (.close ∈ us → Shut u s.nextId path) := by
  have hshut : ∀ {stage t us u}, State.FileAt t s.nextId path p stage → Course s.nextId p t us u → .close ∈ us →
      Shut u s.nextId path := fun ht hu hclose => shut_of_closed (foldl_of_close hclose _ ▸ hu.fileAt ht)
  refine ⟨fun letter base hbase => ?_, fun text hold => ?_⟩
  · have hopened : ∃ t, opening line held path letter s = .ok (.object "file" s.nextId) t ∧
        t.FileAt s.nextId path p (.writing base) := by
      rcases hbase with ⟨rfl, rfl⟩ | ⟨rfl, rfl⟩
      · exact opening_ok hs hspare rfl (open_write hleads)
      · exact opening_ok hs hspare rfl (open_append hleads)
    obtain ⟨t, hcall, ht⟩ := hopened
    refine ⟨t, hcall, fun us u hu => ⟨fun hclose => ?_, hshut ht hu⟩⟩
    exact delivers_of_writing (foldl_writing hclose base ▸ hu.fileAt ht)
  · rw [hold, Utf8.encode_eq_spell] at hleads
    have hmode : mode? "r" = .ok .read := rfl
    obtain ⟨t, hcall, ht⟩ := opening_ok hs hspare hmode (open_read hleads)
    refine ⟨t, hcall, fun us u hu => ⟨fun hclose => ?_, hshut ht hu⟩⟩
    obtain ⟨rest, hstage, hlines⟩ := foldl_reading hclose text.toList
    rw [← hlines]
    exact yields_of_reading (hstage ▸ hu.fileAt ht)

/-- A file of three lines, read from the first one on, and with a text appended. -/
theorem carries_text_three :
    let old := "a\r\n\nb"
    let s := State.fresh .bundled ⟨[], 0, []⟩ [] ⟨[(["f"], .file (Utf8.encode old))], []⟩
    s.Accounted ∧ (∀ o ∈ (Heap.swept [] s).objects, o.Spares ["f"]) ∧
      (Heap.swept [] s).disk.Leads "f" ["f"] (some (Utf8.encode old)) ∧
      (∃ t, opening 1 [] "f" "r" s = .ok (.object "file" 0) t ∧ Yields t 0 [['a'], [], ['b']] ∧
        Shut (Run.after (Use.close.call 2 [] 0) t) 0 "f") ∧
      ∃ t, opening 1 [] "f" "a" s = .ok (.object "file" 0) t ∧
        Delivers (Run.after ((Use.write "é" none).call 2 [] 0) t) 0 ["f"] (Utf8.encode old ++ [0xC3, 0xA9]) := by
  intro old s
  have hs : s.Accounted := .nil
  have hspare : ∀ o ∈ (Heap.swept [] s).objects, o.Spares ["f"] := List.forall_mem_nil _
  have hleads : (Heap.swept [] s).disk.Leads "f" ["f"] (some (Utf8.encode old)) := by
    change Disk.locate ⟨[(["f"], .file (Utf8.encode old))], []⟩ "f" = .ok (.node ["f"] (.file (Utf8.encode old)))
    cbv
  obtain ⟨hwriting, hreading⟩ := carries_text 1 hs hspare hleads
  refine ⟨hs, hspare, hleads, ?_, ?_⟩
  · obtain ⟨t, hcall, hcourse⟩ := hreading old rfl
    have hlines : Text.lines old.toList = [['a'], [], ['b']] := by decide
    refine ⟨t, hcall, ?_, ?_⟩
    · have hyields := (hcourse [] t .start).1 List.not_mem_nil
      rwa [hlines] at hyields
    · exact (hcourse [.close] _ (.call 2 [] .close .start)).2 List.mem_cons_self
  · obtain ⟨t, hcall, hcourse⟩ := hwriting "a" (Utf8.encode old) (.inr ⟨rfl, rfl⟩)
    refine ⟨t, hcall, ?_⟩
    exact (hcourse [.write "é" none] _ (.call 2 [] _ .start)).1 (by simp)

end OpenFile

end Crunch
