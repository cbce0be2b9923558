import Crunch.Text.Case

/-!
# Crunch.Text.Fold

Characters that differ only in case, by the simple case folding of the standard.

* `orbit`: a character with all others that fold to the same one.

Two characters fold to the same one when single-character case mappings lead from one to the other,
back and forth. The dotted and the dotless i stay alone.
-/

namespace Crunch
namespace Text

/-- The code point that the run maps to `n`. -/
def CaseRun.source? (r : CaseRun) (n : Nat) : Option Nat :=
  let m := ((n : Int) - r.shift).toNat
  if r.map? m = some n then some m else none

/-- Pairs that fold together without a case mapping between single characters. -/
def foldedPairs : List (Nat × Nat) := [(0x390, 0x1FD3), (0x3B0, 0x1FE3), (0xFB05, 0xFB06)]

/-- Code points that never fold. -/
def unfolded : List Nat := [0x130, 0x131]

/-- Code points one case mapping away. -/
def caseNeighbours (n : Nat) : List Nat :=
  if unfolded.contains n then []
  else
    let mapped := upperRuns.filterMap (CaseRun.map? · n) ++ lowerRuns.filterMap (CaseRun.map? · n)
    let sources :=
      upperRuns.filterMap (CaseRun.source? · n) ++ lowerRuns.filterMap (CaseRun.source? · n)
    let paired := foldedPairs.filterMap fun p =>
      if p.1 = n then some p.2 else if p.2 = n then some p.1 else none
    (mapped ++ sources ++ paired).filter fun m => !unfolded.contains m

/-- Adds the code points one case mapping away from some. -/
def withNeighbours (ns : List Nat) : List Nat := (ns ++ ns.flatMap caseNeighbours).eraseDups

/-- A character with all that fold to the same one. No two of them are more than three mappings
apart. -/
def orbit (c : Char) : List Char :=
  (withNeighbours (withNeighbours (withNeighbours [c.toNat]))).map Char.ofNat

end Text
end Crunch
