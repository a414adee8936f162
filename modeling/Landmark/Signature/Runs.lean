/-!
# Literal runs

The maximal stretches of significant positions of a mask, in order. Two runs are always apart:
the position after a run is a wildcard or the end of the mask.
-/

namespace Landmark

/-- A stretch of consecutive significant positions. -/
structure LiteralRun where
  start : Nat
  length : Nat
deriving DecidableEq, Repr, Inhabited

namespace LiteralRun

/-- The runs of the part of a mask that begins at position `start`. The position after a run is
passed over together with it, since it cannot be significant. -/
def splitFrom (start : Nat) : List Bool → List LiteralRun
  | [] => []
  | false :: mask => splitFrom (start + 1) mask
  | true :: mask =>
    let length := (mask.takeWhile id).length + 1
    ⟨start, length⟩ :: splitFrom (start + length + 1) (mask.drop length)
termination_by mask => mask.length
decreasing_by
  all_goals simp only [List.length_cons, List.length_drop]
  all_goals omega

/-- The literal runs of a mask, in order. -/
def split (mask : List Bool) : List LiteralRun :=
  splitFrom 0 mask

/-- The part of a list that a run covers. -/
def slice {α : Type} (run : LiteralRun) (xs : List α) : List α :=
  (xs.drop run.start).take run.length

end LiteralRun

end Landmark
