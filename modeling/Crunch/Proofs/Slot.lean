import Crunch.Proofs.Coerce
import Crunch.Slot

/-!
# Crunch.Proofs.Slot

How a variable gets its type.

* `adopt_of_kind`: a type with a kind stays.
* `adopt_of_noType`: a type with a kind that comes up is that of the value.
* `Slot.value_of_store`: what a store puts into a variable.
-/

namespace Crunch

theorem adopt_of_kind {slot : Ty} (h : slot.kind ≠ .noType) (t : Ty) : adopt slot t = slot := by
  simp [adopt, h]

/-- A type that is adopted has a kind. -/
theorem adopt_of_noType {slot t : Ty} (h : slot.kind = .noType) (ha : (adopt slot t).kind ≠ .noType) :
    adopt slot t = t := by
  unfold adopt at ha ⊢
  split
  · rfl
  · rename_i hn
    rw [if_neg hn] at ha
    exact absurd h ha

theorem adopt_untyped (t : Ty) : adopt Ty.untyped t = if t.kind = .noType then Ty.untyped else t := by
  unfold adopt
  by_cases h : t.kind = .noType
  · rw [if_neg fun hn => hn.2.1 h, if_pos h]
  · rw [if_pos ⟨rfl, h, .inl rfl⟩, if_neg h]

@[simp] theorem adopt_self (t : Ty) : adopt t t = t := by
  unfold adopt
  split <;> rfl

theorem Slot.value_of_store {slot slot' : Slot} {v : Value} (h : slot.store v = .ok slot') :
    ∃ w, v.coerce slot.type = .ok w ∧ slot' = slot.withValue w := by
  cases hv : v.coerce slot.type with
  | error c => simp [Slot.store, hv, Except.map] at h
  | ok w =>
    simp only [Slot.store, hv, Except.map] at h
    cases h
    exact ⟨w, rfl, rfl⟩

end Crunch
