import Landmark.Task

/-!
# Deferred values

A deferred value is read from a text that is asked for when the value is first wanted. The first
text that can be read settles the value for good; a failure settles nothing, so the next access asks
again.
-/

namespace Landmark

/-- A value that may still have to be read. -/
inductive Deferred (α : Type)
  | ready (value : α)
  | pending
deriving DecidableEq, Repr, Inhabited

namespace Deferred

variable {α σ : Type}

/-- The value, if it is settled. -/
def value? : Deferred α → Option α
  | .ready value => some value
  | .pending => none

/-- Whether the value is settled. -/
def isReady (deferred : Deferred α) : Bool :=
  deferred.value?.isSome

/-- The value, read from `source` if it is not settled yet. -/
def force (read : String → Except Error α) (source : Task σ String) :
    Task (Deferred α × σ) α := do
  match (← Task.getState).1 with
  | .ready value => return value
  | .pending =>
    let text ← Task.beside source
    let value ← Task.ofExcept (read text)
    Task.setState (.ready value, (← Task.getState).2)
    return value

/-- The value as text, given how a settled one is written. -/
def text (write : α → String) : Deferred α → String
  | .ready value => "LazyValue(" ++ write value ++ ")"
  | .pending => "LazyValue(<pending>)"

end Deferred

end Landmark
