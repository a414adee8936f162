import Landmark.Error
import Landmark.Text.Blank

/-!
# Formulas

A formula computes an address from constants, from named patterns and by operators. A `unary` node
carries its setting as text, a `binary` node computes it by a formula of its own; `toBinary` turns
the former into the latter with a constant, which changes nothing in meaning.
-/

namespace Landmark

/-- How an address is computed. -/
inductive Formula
  /-- Text that is given on unchanged. -/
  | constant (value : String)
  /-- The address of a named pattern. -/
  | pattern (name : String)
  /-- An operator with its setting given as text, if at all. -/
  | unary (operator : String) (value : Option String) (operand : Formula)
  /-- An operator whose setting is computed as well. -/
  | binary (operator : String) (target value : Formula)
deriving DecidableEq, Repr, Inhabited

namespace Formula

/-- The identifier of the operator at the root. -/
def operator? : Formula → Option String
  | .unary operator _ _ => some operator
  | .binary operator _ _ => some operator
  | _ => none

/-- A unary root as a binary one; other formulas stay as they are. -/
def toBinary : Formula → Formula
  | .unary operator value operand => .binary operator operand (.constant (value.getD ""))
  | formula => formula

/-- The number of nodes on the longest path from the root to a leaf. -/
def height : Formula → Nat
  | .constant _ => 1
  | .pattern _ => 1
  | .unary _ _ operand => operand.height + 1
  | .binary _ target value => max target.height value.height + 1

/-- Fails unless the identifier of an operator has a character that is not blank. -/
def requireOperator (operator : String) : Except DocumentFault Unit :=
  if Text.trim operator = "" then .error .emptyOperator else .ok ()

/-- Accepts formulas that name all their patterns and operators; of several faults the first one
from the root, target before value, is reported. -/
def validate : Formula → Except DocumentFault Unit
  | .constant _ => .ok ()
  | .pattern name => if Text.trim name = "" then .error .emptyReference else .ok ()
  | .unary operator _ operand => do
    requireOperator operator
    operand.validate
  | .binary operator target value => do
    requireOperator operator
    target.validate
    value.validate

end Formula

end Landmark
