import Landmark.Operator.Builtin
import Landmark.Text.Shown

/-!
# Registries of operators

A registry binds identifiers to operators and keeps them in strictly ascending order. The built-in
operators join a registry when an identifier is looked up in vain, and they never displace an
operator that is already bound.
-/

namespace Landmark

/-- Operators by identifier, in strictly ascending order. -/
structure Registry where
  entries : List (String × Operator) := []
deriving Inhabited

namespace Registry

/-- The operator bound to an identifier. -/
def lookup (registry : Registry) (identifier : String) : Option Operator :=
  registry.entries.lookup identifier

/-- Whether an identifier is bound. -/
def isRegistered (registry : Registry) (identifier : String) : Bool :=
  (registry.lookup identifier).isSome

/-- The bound identifiers in ascending order. -/
def identifiers (registry : Registry) : List String :=
  registry.entries.map Prod.fst

/-- Binds an identifier in a list that is in ascending order. -/
def bind (identifier : String) (operator : Operator) :
    List (String × Operator) → List (String × Operator)
  | [] => [(identifier, operator)]
  | entry :: entries =>
    if identifier = entry.1 then (identifier, operator) :: entries
    else if identifier < entry.1 then (identifier, operator) :: entry :: entries
    else entry :: bind identifier operator entries

/-- Binds an identifier, in place of what it was bound to. -/
def insert (registry : Registry) (identifier : String) (operator : Operator) : Registry :=
  ⟨bind identifier operator registry.entries⟩

/-- Unbinds an identifier. -/
def erase (registry : Registry) (identifier : String) : Registry :=
  ⟨registry.entries.filter fun entry => entry.1 ≠ identifier⟩

/-- The built-in operators whose identifiers are not bound. -/
def missingBuiltins (registry : Registry) : List (String × Operator) :=
  Operator.builtins.filter fun entry => !registry.isRegistered entry.1

/-- The registry with every built-in operator whose identifier is not bound yet. -/
def withBuiltins (registry : Registry) : Registry :=
  registry.missingBuiltins.foldl (fun r entry => r.insert entry.1 entry.2) registry

/-- Binds an identifier and tells what it was bound to. -/
def register (identifier : String) (operator : Operator) : StateM Registry (Option Operator) := do
  let registry ← get
  set (registry.insert identifier operator)
  return registry.lookup identifier

/-- Unbinds an identifier and tells whether it was bound. -/
def unregister (identifier : String) : StateM Registry Bool := do
  let registry ← get
  set (registry.erase identifier)
  return registry.isRegistered identifier

/-- Binds the missing built-in operators and tells how many there were. -/
def ensureBuiltins : StateM Registry Nat := do
  let registry ← get
  set registry.withBuiltins
  return registry.missingBuiltins.length

/-- Gives the operator for an identifier. An unbound identifier brings the built-in operators in
before it is given up. -/
def resolve (identifier : String) : StateM Registry (Except Error Operator) := do
  match (← get).lookup identifier with
  | some operator => return .ok operator
  | none =>
    let _ ← ensureBuiltins
    match (← get).lookup identifier with
    | some operator => return .ok operator
    | none => return .error (.unknownOperator identifier)

/-- The registry of the built-in operators alone. -/
def standard : Registry :=
  withBuiltins {}

/-- A registry as text: the identifiers only. -/
def text (registry : Registry) : String :=
  "OperatorRegistry \x7b identifiers: [" ++ ", ".intercalate (registry.identifiers.map Text.shown)
    ++ "] \x7d"

end Registry

end Landmark
