import Landmark.Operator.Program

/-!
# The operators that come with the library

`Add` moves its target by a signed offset, wrapping at the ends of the address space; it asks for
the target first. `Lea` loads a value from its target and gives it as an address; without memory it
fails before it asks for anything. Only `Add` is pure arithmetic, so only its results outlive a
build.
-/

namespace Landmark

namespace Operator

/-- Moves the target by a signed offset. -/
def add : Operator where
  takes := .offset
  cacheable := true
  program _ :=
    .withTarget fun target => .withSetting fun offset => .give (target + offset.toUInt64)

/-- Loads a value of a given width from the target. -/
def lea : Operator where
  takes := .width
  cacheable := false
  program
    | none => .fail .missingMemory
    | some pointerWidth =>
      .withTarget fun target => .withSetting fun width =>
        match width.size pointerWidth target with
        | .ok size => .load target size
        | .error error => .fail error

/-- The built-in operators under their identifiers. -/
def builtins : List (String × Operator) :=
  [("Add", add), ("Lea", lea)]

/-- An instance of `add` as text. -/
def addText (cells : Cells Int64) : String :=
  cells.text "AddOperator" "offset" fun offset => toString offset.toInt

/-- An instance of `lea` as text. -/
def leaText (cells : Cells LoadWidth) : String :=
  cells.text "LeaOperator" "width" LoadWidth.name

end Operator

end Landmark
