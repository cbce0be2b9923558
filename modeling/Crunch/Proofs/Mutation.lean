import Crunch.Pattern.Bundled
import Crunch.Proofs.Collection
import Crunch.Proofs.Method
import Crunch.Proofs.Trail

/-!
# Crunch.Proofs.Mutation

What a method that changes its receiver leaves behind when it fails.

* `Value.Spoils`: a collection goes into another one element by element, and one of the elements gives
  the receiver a type that it did not have.
* `Value.mutate_error_iff`: a method that fails leaves its receiver as it was, unless it spoils it. What
  it spoils is the element type, never the elements.
* `Run.callMember_error`: the same for the variables of a state.
* `Expr.failing_mutator_exactly`: both, for a call in a script.
-/

namespace Crunch

open Run

/-! ## Collections -/

namespace Collection

variable {c c' : Collection} {i : Int64} {x : Fault.Cause}

theorem fitAll_single {e e' : Ty} {v : Value} (h : fitAll e [v] = (e', .error x)) : e' = e := by
  simp only [fitAll] at h
  split at h
  · rename_i e₁ y hfit
    cases h
    exact fit_error hfit
  · cases h

/-- New elements that do not fit leave the elements alone, but what the first of them made of the
element type stays. -/
theorem insertAll_error {vs : List Value} (h : c.insertAll i vs = (c', .error x)) :
    c'.items = c.items ∧
      (c' = c ↔ ¬((∃ p, gapPosition i c.size = .ok p) ∧ (fitAll c.element vs).1 ≠ c.element)) := by
  simp only [insertAll] at h
  split at h
  · rename_i y hp
    cases h
    refine ⟨rfl, iff_of_true rfl ?_⟩
    rintro ⟨⟨p, hp'⟩, -⟩
    rw [hp] at hp'
    cases hp'
  · rename_i p hp
    split at h
    · rename_i e y hfit
      cases h
      refine ⟨rfl, ?_⟩
      rw [hfit]
      constructor
      · rintro he ⟨-, hne⟩
        exact hne (congrArg Collection.element he)
      · intro hn
        have he : e = c.element := Classical.not_not.mp fun hne => hn ⟨⟨p, hp⟩, hne⟩
        rw [he]
    · cases h

theorem insert_error {v : Value} (h : c.insert i v = (c', .error x)) : c' = c := by
  refine (insertAll_error h).2.mpr ?_
  rintro ⟨⟨p, hp⟩, hne⟩
  simp only [insert, insertAll, hp] at h
  split at h
  · rename_i e y hfit
    rw [hfit, fitAll_single hfit] at hne
    exact hne rfl
  · cases h

theorem put_error {v : Value} (h : c.put i v = (c', .error x)) : c' = c := by
  simp only [put] at h
  split at h
  · cases h
    rfl
  · split at h
    · rename_i e y hfit
      cases h
      rw [fit_error hfit]
    · cases h

theorem remove_error (h : c.remove i = (c', .error x)) : c' = c := by
  simp only [remove] at h
  split at h
  · cases h
    rfl
  · cases h

end Collection

/-! ## Values -/

namespace Value

variable {v w item : Value} {i : Int64} {m : Member} {args : List Value} {x : Fault.Cause}

/-- A collection that goes into another one in front of a position, where one of its elements changes the
element type of the receiver. -/
def SpoilsAt (v : Value) (i : Int64) (item : Value) : Prop :=
  ∃ (c source : Collection) (p : Nat), v = c.value ∧ item = source.value ∧ c.isSpliceable item.type = true ∧
    gapPosition i c.size = .ok p ∧ (Collection.fitAll c.element source.items).1 ≠ c.element

/-- A method call that changes the element type of its receiver, if it fails. -/
def Spoils (v : Value) (m : Member) (args : List Value) : Prop :=
  match m, args with
  | .named "insert", [index, item] => ∃ i, index.integer? = .ok i ∧ v.SpoilsAt i item
  | .named "append", [item] => ∃ n, v.countOf m = .ok n ∧ v.SpoilsAt (lengthOf n) item
  | _, _ => False

/-- What a method leaves of its receiver: all of it, or its elements under another element type. -/
def SameItems (v w : Value) : Prop := w = v ∨ ∃ e e' items, v = .collection e items ∧ w = .collection e' items

theorem orUnchanged_error {r : Except Fault.Cause Value} (h : v.orUnchanged r = (w, .error x)) : w = v := by
  cases r with
  | ok u => cases h
  | error y =>
    cases h
    rfl

theorem ofOperation_error {α : Type} {r : Collection × Except Fault.Cause α}
    (h : ofOperation r = (w, .error x)) : ∃ c, r = (c, .error x) ∧ w = c.value := by
  obtain ⟨c, o⟩ := r
  cases o with
  | ok a => cases h
  | error y =>
    cases h
    exact ⟨c, rfl, rfl⟩

theorem withIndex_error {index : Value} {step : Int64 → Value × Except Fault.Cause Unit}
    (h : v.withIndex index step = (w, .error x)) :
    w = v ∧ (∀ i, index.integer? ≠ .ok i) ∨ ∃ i, index.integer? = .ok i ∧ step i = (w, .error x) := by
  unfold withIndex at h
  cases hi : index.integer? with
  | ok i =>
    rw [hi] at h
    exact .inr ⟨i, rfl, h⟩
  | error y =>
    rw [hi] at h
    cases h
    exact .inl ⟨rfl, nofun⟩

/-- Only collections can be spoilt, and only by collections of the level of the receiver. -/
theorem not_spoilsAt {e : Ty} {items : List Value}
    (h : ∀ e' items', item = .collection e' items' → Collection.isSpliceable ⟨e, items⟩ item.type = false) :
    ¬SpoilsAt (.collection e items) i item := by
  rintro ⟨c, source, p, hv, hitem, hs, -, -⟩
  cases hv
  have hno := h source.element source.items hitem
  rw [show Collection.isSpliceable c item.type = false from hno] at hs
  cases hs

theorem insert_error (h : v.insert i item m = (w, .error x)) : v.SameItems w ∧ (w = v ↔ ¬v.SpoilsAt i item) := by
  -- A receiver that is no collection, or gets one new element, is never spoilt.
  have unspoilt : w = v → ¬v.SpoilsAt i item → v.SameItems w ∧ (w = v ↔ ¬v.SpoilsAt i item) := fun hw hn =>
    ⟨.inl hw, iff_of_true hw hn⟩
  cases v with
  | collection e items =>
    have one : ofOperation (Collection.insert ⟨e, items⟩ i item) = (w, .error x) → w = .collection e items := by
      intro h
      obtain ⟨c, hc, rfl⟩ := ofOperation_error h
      rw [Collection.insert_error hc]
      rfl
    cases item with
    | collection e' items' =>
      simp only [insert] at h
      split at h
      · rename_i hs
        obtain ⟨c, hc, rfl⟩ := ofOperation_error h
        obtain ⟨hitems, hsame⟩ := Collection.insertAll_error hc
        refine ⟨.inr ⟨e, c.element, items, rfl, ?_⟩, ?_⟩
        · rw [← show c.items = items from hitems]
          rfl
        · have hvalue : c.value = .collection e items ↔ c = ⟨e, items⟩ := by
            constructor
            · intro he
              cases he
              rfl
            · rintro rfl
              rfl
          rw [hvalue, hsame]
          refine not_congr ⟨?_, ?_⟩
          · rintro ⟨⟨p, hp⟩, hne⟩
            exact ⟨⟨e, items⟩, ⟨e', items'⟩, p, rfl, rfl, hs, hp, hne⟩
          · rintro ⟨c, source, p, hv, hitem, -, hp, hne⟩
            cases hv
            cases hitem
            exact ⟨⟨p, hp⟩, hne⟩
      · rename_i hs
        exact unspoilt (one h) (not_spoilsAt fun _ _ _ => by simpa using hs)
    | _ => exact unspoilt (one h) (not_spoilsAt fun _ _ he => by cases he)
  | literal s => exact unspoilt (orUnchanged_error h) (by rintro ⟨c, source, p, hv, -⟩; cases hv)
  | tabchar bytes => exact unspoilt (orUnchanged_error h) (by rintro ⟨c, source, p, hv, -⟩; cases hv)
  | _ =>
    cases h
    exact unspoilt rfl (by rintro ⟨c, source, p, hv, -⟩; cases hv)

theorem put_error (h : v.put i item m = (w, .error x)) : w = v := by
  cases v with
  | literal s => exact orUnchanged_error h
  | tabchar bytes => exact orUnchanged_error h
  | collection e items =>
    obtain ⟨c, hc, rfl⟩ := ofOperation_error h
    rw [Collection.put_error hc]
    rfl
  | _ =>
    cases h
    rfl

theorem delete_error (h : v.delete i m = (w, .error x)) : w = v := by
  cases v with
  | literal s => exact orUnchanged_error h
  | tabchar bytes => exact orUnchanged_error h
  | collection e items =>
    obtain ⟨c, hc, rfl⟩ := ofOperation_error h
    rw [Collection.remove_error hc]
    rfl
  | _ =>
    cases h
    rfl

/-- A method that fails never changes elements. It changes the element type exactly if it spoils it. -/
theorem mutate_error (h : v.mutate m args = (w, .error x)) : v.SameItems w ∧ (w = v ↔ ¬v.Spoils m args) := by
  have unspoilt : w = v → ¬v.Spoils m args → v.SameItems w ∧ (w = v ↔ ¬v.Spoils m args) := fun hw hn =>
    ⟨.inl hw, iff_of_true hw hn⟩
  unfold mutate at h
  split at h
  · exact unspoilt (orUnchanged_error h) (by simp [Spoils])
  · rename_i index item
    rcases withIndex_error h with ⟨hw, hi⟩ | ⟨i, hi, h⟩
    · refine unspoilt hw ?_
      rintro ⟨i, hi', -⟩
      exact hi i hi'
    · obtain ⟨hsame, hiff⟩ := insert_error h
      refine ⟨hsame, hiff.trans (not_congr ⟨fun hs => ⟨i, hi, hs⟩, ?_⟩)⟩
      rintro ⟨j, hj, hs⟩
      rw [hi] at hj
      cases hj
      exact hs
  · refine unspoilt ?_ (by simp [Spoils])
    rcases withIndex_error h with ⟨hw, -⟩ | ⟨i, -, h⟩
    · exact hw
    · exact put_error h
  · rename_i item
    unfold append at h
    split at h
    · rename_i n hn
      obtain ⟨hsame, hiff⟩ := insert_error h
      refine ⟨hsame, hiff.trans (not_congr ⟨fun hs => ⟨n, hn, hs⟩, ?_⟩)⟩
      rintro ⟨k, hk, hs⟩
      rw [hn] at hk
      cases hk
      exact hs
    · rename_i c hc
      cases h
      refine unspoilt rfl ?_
      rintro ⟨k, hk, -⟩
      rw [hc] at hk
      cases hk
  · refine unspoilt ?_ (by simp [Spoils])
    rcases withIndex_error h with ⟨hw, -⟩ | ⟨i, -, h⟩
    · exact hw
    · exact delete_error h
  · rename_i h₁ h₂ h₃ h₄ h₅
    refine unspoilt ?_ ?_
    · split at h <;> cases h <;> rfl
    · intro hs
      unfold Spoils at hs
      split at hs
      · exact h₂ _ _ rfl rfl
      · exact h₄ _ rfl rfl
      · exact hs

/-- A receiver whose element type has a kind is not spoilt. -/
theorem Spoils.untyped (h : v.Spoils m args) : ∃ e items, v = .collection e items ∧ e.kind = .noType := by
  have key : ∀ {i item}, v.SpoilsAt i item → ∃ e items, v = .collection e items ∧ e.kind = .noType := by
    rintro i item ⟨c, source, p, hv, -, -, -, hne⟩
    refine ⟨c.element, c.items, hv, ?_⟩
    by_cases hk : c.element.kind = .noType
    · exact hk
    · exact absurd (congrArg Prod.fst (Collection.fitAll_of_kind hk source.items)) hne
  unfold Spoils at h
  split at h
  · obtain ⟨i, -, hs⟩ := h
    exact key hs
  · obtain ⟨n, -, hs⟩ := h
    exact key hs
  · exact h.elim

end Value

/-! ## Variables -/

/-- A call on a variable that fails writes at most the element type of its value. -/
theorem Run.callMember_error {line : Nat} {name : String} {m : Member} {args : List Value} {s t : State}
    {h : Halt Fault} (hm : m.isMutator = true) (hx : callMember line (.named name) m args s = .error h t) :
    (t = s ↔ ¬∃ slot, s.scopes.find? name = some slot ∧ slot.value.Spoils m args) ∧
      ∀ slot, s.scopes.find? name = some slot →
        ∃ w, slot.value.SameItems w ∧ t = s.write name { slot with value := w } := by
  have hends : Ends (callMember line (.named name) m args) s (fun _ _ => True) fun _ t =>
      (s.scopes.find? name = none ∧ t = s) ∨ ∃ slot w c, s.scopes.find? name = some slot ∧
        slot.value.mutate m args = (w, .error c) ∧ t = s.write name { slot with value := w } := by
    simp only [callMember, hm, if_true, ends_bind, ends_pure, ends_mutate]
    refine ⟨fun slot hf => ⟨fun _ _ => trivial, fun w c hw => ?_⟩, fun hf => ?_⟩
    · exact .inr ⟨slot, w, c, hf, hw, rfl⟩
    · exact .inl ⟨hf, trivial⟩
  rcases (ends_of_error hx).mp hends with ⟨hf, rfl⟩ | ⟨slot, w, c, hf, hw, rfl⟩
  · simp [hf]
  · obtain ⟨hsame, hiff⟩ := Value.mutate_error hw
    have hstate : s.write name { slot with value := w } = s ↔ w = slot.value := by
      constructor
      · intro he
        have hfind := Scopes.find?_update hf name { slot with value := w }
        rw [if_pos rfl, show s.scopes.update name { slot with value := w } = s.scopes from congrArg State.scopes he,
          hf] at hfind
        exact congrArg Slot.value (Option.some.inj hfind).symm
      · rintro rfl
        simp only [State.write, Scopes.update_find? hf]
    rw [hf]
    simp only [Option.some.injEq, forall_eq', exists_eq_left']
    exact ⟨hstate.trans hiff, w, hsame, rfl⟩

/-- A call of a method on what an expression names, after its arguments have been evaluated. -/
theorem Expr.member_named {held : List Value} {line : Nat} {receiver : Expr} {m : Member} {es : List Expr}
    {name : String} {slot : Slot} {args : List Argument} {s₀ s₁ s : State}
    (hr : receiver.operand held s₀ = .ok (.named name) s₁) (hf : s₁.scopes.find? name = some slot)
    (hv : ∀ native id, slot.value ≠ .object native id) (hargs : Expr.arguments held es s₁ = .ok args s) :
    (Expr.member line receiver m es).operand held s₀ = callMember line (.named name) m (args.map (·.value)) s := by
  have hread : (Operand.named name).read line s₁ = .ok slot.value s₁ := lookup_of_find hf
  rw [Expr.operand, bind_of_ok hr, bind_of_ok hread]
  cases hslot : slot.value with
  | object native id => exact absurd hslot (hv native id)
  | _ => exact bind_of_ok hargs

/-- When a method that changes its receiver fails, the receiver is what it was, contents and type, exactly
if it is not spoilt; and a variable that it was called on, whatever else the state holds, is what it was when
the arguments had been evaluated, exactly if its value is not spoilt. Spoilt are only collections without an
element type, and they keep their elements; the variable keeps its declared type. -/
theorem Expr.failing_mutator_exactly (m : Member) (args : List Argument) :
    (∀ (v w : Value) (x : Fault.Cause), v.mutate m (args.map (·.value)) = (w, .error x) →
      v.SameItems w ∧ (w = v ↔ ¬v.Spoils m (args.map (·.value))) ∧
        (v.Spoils m (args.map (·.value)) → ∃ e items, v = .collection e items ∧ e.kind = .noType)) ∧
    ∀ (held : List Value) (line : Nat) (receiver : Expr) (es : List Expr) (name : String) (slot : Slot)
      (s₀ s₁ s t : State) (h : Halt Fault), m.isMutator = true →
      receiver.operand held s₀ = .ok (.named name) s₁ → s₁.scopes.find? name = some slot →
      (∀ native id, slot.value ≠ .object native id) → Expr.arguments held es s₁ = .ok args s →
      (Expr.member line receiver m es).operand held s₀ = .error h t →
      (t = s ↔ ¬∃ slot, s.scopes.find? name = some slot ∧ slot.value.Spoils m (args.map (·.value))) ∧
        ∀ slot, s.scopes.find? name = some slot →
          ∃ w, slot.value.SameItems w ∧ t = s.write name { slot with value := w } := by
  constructor
  · intro v w x hw
    obtain ⟨hsame, hiff⟩ := Value.mutate_error hw
    exact ⟨hsame, hiff, fun hs => hs.untyped⟩
  · intro held line receiver es name slot s₀ s₁ s t h hm hr hf hv hargs hx
    rw [Expr.member_named hr hf hv hargs] at hx
    exact callMember_error hm hx

/-- An item that fails in the middle of a splice, and a position out of range. -/
theorem Expr.failing_mutator_exactly_position :
    let source : Value := .collection Ty.literal [.literal "a", .null Ty.integer]
    let s : State := (State.fresh .bundled ⟨[], 0, []⟩ [] ⟨[], []⟩).declare "x" (.collection Ty.integer [.integer 1])
    (Value.collection Ty.untyped []).Spoils (.named "append") [source] ∧
      ∃ h, (Expr.member 1 (.var 1 "x") (.named "delete") [.constant 1 (.integer 5)]).operand [] s = .error h s := by
  intro source s
  constructor
  · have hvalue := (Expr.failing_mutator_exactly (.named "append") [⟨source, none⟩]).1
      (.collection Ty.untyped []) _ _ rfl
    have hiff := hvalue.2.1
    exact Classical.not_not.mp fun hn => nomatch hiff.mpr hn
  · have hx : ∃ h t, (Expr.member 1 (.var 1 "x") (.named "delete") [.constant 1 (.integer 5)]).operand [] s =
        .error h t := ⟨_, _, rfl⟩
    obtain ⟨h, t, hx⟩ := hx
    have hvariable := (Expr.failing_mutator_exactly (.named "delete") [⟨.integer 5, none⟩]).2 [] 1 (.var 1 "x")
      [.constant 1 (.integer 5)] "x" (Slot.ofValue (.collection Ty.integer [.integer 1])) s s s t h rfl rfl rfl nofun
      rfl hx
    have hsame : t = s := by
      rw [hvariable.1]
      rintro ⟨slot, -, hs⟩
      exact hs
    exact ⟨h, hsame ▸ hx⟩

/-- The text `a` gives the untyped collection its element type, then the null integer does not fit. -/
theorem Value.splice_strays :
    let source : Value := .collection Ty.literal [.literal "a", .null Ty.integer]
    ∃ w x, (Value.collection Ty.untyped []).mutate (.named "append") [source] = (w, .error x) ∧
      w = .collection Ty.literal [] ∧ w ≠ .collection Ty.untyped [] :=
  ⟨_, _, rfl, rfl, nofun⟩

end Crunch
