/-!
# Crunch.Halt

Why a bounded computation gives no value.
-/

namespace Crunch

/-- An error of the computation itself, or the bound on its length was reached. -/
inductive Halt (ε : Type) where
  | error (e : ε)
  | outOfFuel
deriving DecidableEq, Repr

end Crunch
