import Landmark.Formula.Basic
import Landmark.Operator.Registry

/-!
# Evaluating formulas

A formula evaluates to text: a constant to itself, everything else to the upper-case hexadecimal
text of an address. The operands of an operator are evaluated when the operator asks for them, and
the operator is looked up before that, so nothing happens below a node whose operator is unknown.
-/

namespace Landmark

/-- What an evaluation works on: the registry, which the first missing identifier fills up, and the
state behind the named patterns. -/
structure Scene (σ : Type) where
  registry : Registry
  patterns : σ
deriving Inhabited

/-- Finds the address of a named pattern. -/
abbrev Atlas (σ : Type) := String → Task σ UInt64

namespace Formula

variable {σ : Type}

/-- The address of a named pattern, as part of an evaluation. -/
def lookup (atlas : Atlas σ) (name : String) : Task (Scene σ) UInt64 := do
  Task.record (.lookup name)
  Task.within Scene.patterns (fun patterns scene => { scene with patterns }) (atlas name)

/-- The operator for an identifier. -/
def resolve (identifier : String) : Task (Scene σ) Operator := do
  let scene ← Task.getState
  let (operator, registry) := (Registry.resolve identifier).run scene.registry
  Task.setState { scene with registry }
  Task.ofExcept operator

/-- Applies an operator to operands that are still to be evaluated. -/
def apply (identifier : String) (supply : Supply (Scene σ)) : Task (Scene σ) String := do
  let operator ← resolve identifier
  return Operand.writeAddress (← operator.executeOnce supply)

/-- Evaluates a formula to text. -/
def evaluate (atlas : Atlas σ) (memory : Option Memory) : Formula → Task (Scene σ) String
  | .constant value => return value
  | .pattern name => return Operand.writeAddress (← lookup atlas (Text.trim name))
  | .unary operator value operand =>
    apply operator ⟨return value.getD "", evaluate atlas memory operand, memory⟩
  | .binary operator target value =>
    apply operator ⟨evaluate atlas memory value, evaluate atlas memory target, memory⟩

/-- Evaluates a formula and reads the text as an address. -/
def evaluateAddress (atlas : Atlas σ) (memory : Option Memory) (formula : Formula) :
    Task (Scene σ) UInt64 := do
  let text ← formula.evaluate atlas memory
  Task.ofExcept (readTarget text)

end Formula

end Landmark
