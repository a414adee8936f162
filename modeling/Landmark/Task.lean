import Landmark.Error

/-!
# Tasks

A task works on a state, may fail, and keeps what it did to the state when it fails. Beside the
state it carries a log of what it asked of the outside: memory reads, searches, pattern lookups and
calls of a store. The log only ever grows; its newest event comes first.

`Task.within` runs a task on a part of a larger state, and `Task.attempt` turns failure into a
value.
-/

namespace Landmark

/-- A call of a document store. -/
inductive StoreCall
  | lastModified
  | load
  | save
deriving DecidableEq, Repr, Inhabited

/-- Something that a task asked of the outside. -/
inductive Event
  /-- The address of the named pattern was asked for. -/
  | lookup (name : String)
  /-- Bytes were copied out of the target's memory. -/
  | read (address : UInt64) (size : Nat)
  /-- Bytes were searched, with so many applications of a matcher. -/
  | scan (applications : Nat)
  /-- The module is searched for the named pattern. -/
  | sought (name : String)
  /-- A search of the module found the named pattern. -/
  | located (name : String) (address : UInt64)
  /-- A document store was called. -/
  | store (call : StoreCall)
deriving DecidableEq, Repr, Inhabited

/-- A state and the events so far, newest first. -/
structure Trail (σ : Type) where
  state : σ
  log : List Event := []
deriving Repr, Inhabited

/-- A computation that works on a state, logs events and may fail. -/
abbrev Task (σ : Type) (α : Type) := EStateM Error (Trail σ) α

namespace Task

variable {σ τ α : Type}

/-- Logs an event. -/
def record (event : Event) : Task σ Unit :=
  modify fun trail => { trail with log := event :: trail.log }

/-- The current state. -/
def getState : Task σ σ :=
  return (← get).state

/-- Replaces the state. -/
def setState (state : σ) : Task σ Unit :=
  modify fun trail => { trail with state }

/-- Gives a result that is already known. -/
def ofExcept : Except Error α → Task σ α
  | .ok a => pure a
  | .error e => throw e

/-- Runs a task and gives its failure as a value. -/
def attempt (task : Task σ α) : Task σ (Except Error α) := fun trail =>
  match task trail with
  | .ok a trail => .ok (.ok a) trail
  | .error e trail => .ok (.error e) trail

/-- Runs a task on a part of the state, given how to take the part out and how to put it back. -/
def within (part : σ → τ) (put : τ → σ → σ) (task : Task τ α) : Task σ α := fun trail =>
  match task ⟨part trail.state, trail.log⟩ with
  | .ok a inner => .ok a ⟨put inner.state trail.state, inner.log⟩
  | .error e inner => .error e ⟨put inner.state trail.state, inner.log⟩

/-- Runs a task beside another state. -/
def beside (task : Task σ α) : Task (τ × σ) α :=
  within Prod.snd (fun s pair => (pair.1, s)) task

end Task

end Landmark
