import Landmark.Task

/-!
# Document stores

A store keeps the bytes of one document and the time of their last change. Every call may fail; what
it did to the store before it failed stays done. `Store.call` makes a call part of a task and logs
it.
-/

namespace Landmark

/-- A point in time, in nanoseconds since the start of 1970. -/
abbrev Instant := Int

/-- The start of 1970. -/
def Instant.epoch : Instant := 0

/-- The nanoseconds of a millisecond. -/
def Instant.millisecond : Instant := 1000000

/-- Where a document is kept between runs. -/
class Store (σ : Type) where
  /-- When the document was last written. -/
  lastModified : EStateM Error σ Instant
  /-- The bytes of the document; a store without a document gives none. -/
  load : EStateM Error σ ByteArray
  /-- Replaces the document. -/
  save : ByteArray → EStateM Error σ Unit

namespace Store

variable {σ τ α : Type}

/-- Makes a store's call part of a task on the store, and logs it. -/
def call (event : StoreCall) (action : EStateM Error σ α) : Task σ α := do
  Task.record (.store event)
  fun trail =>
    match action trail.state with
    | .ok a state => .ok a { trail with state }
    | .error e state => .error e { trail with state }

end Store

end Landmark
