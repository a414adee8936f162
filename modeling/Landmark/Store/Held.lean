import Landmark.Store.Basic

/-!
# Stores in memory

`HeldStore` keeps a document in memory and counts the saves. Each write takes its time from a clock,
but is always later than the one before: when the clock has not passed that yet, the write is dated
one millisecond later. So a reader that remembers a time notices every write after it, whatever the
clock shows.

`FaultyStore` is such a store whose calls can be switched to fail before they touch it.
-/

namespace Landmark

/-- A document kept in memory. -/
structure HeldStore where
  bytes : ByteArray := .empty
  modified : Instant := Instant.epoch
  saves : Nat := 0
  /-- What the clock shows when it is read for the first time, the second time and so on. -/
  clock : Nat → Instant := fun _ => Instant.epoch
  /-- How often the clock was read. -/
  readings : Nat := 0

namespace HeldStore

/-- The clock's reading, or one millisecond after `previous` if the clock is not past it. -/
def nextInstant (previous now : Instant) : Instant :=
  if previous < now then now else previous + Instant.millisecond

/-- Replaces the bytes and dates the change. -/
def write (store : HeldStore) (bytes : ByteArray) : HeldStore :=
  { store with
    bytes
    modified := nextInstant store.modified (store.clock store.readings)
    readings := store.readings + 1 }

/-- Replaces the document as someone else would, which is not a save. -/
def edit (store : HeldStore) (bytes : ByteArray) : HeldStore :=
  store.write bytes

/-- Replaces the document and counts the save. -/
def save (store : HeldStore) (bytes : ByteArray) : HeldStore :=
  { store.write bytes with saves := store.saves + 1 }

instance : Store HeldStore where
  lastModified := return (← get).modified
  load := return (← get).bytes
  save bytes := modify fun store => store.save bytes

end HeldStore

/-- Which calls of a store fail. -/
structure Refusals where
  lastModified : Bool := false
  load : Bool := false
  save : Bool := false
deriving DecidableEq, Repr, Inhabited

/-- A store in memory whose calls can be switched to fail. -/
structure FaultyStore where
  inner : HeldStore := {}
  refusals : Refusals := {}

namespace FaultyStore

variable {α : Type}

/-- Makes a call of the inner store unless it is refused. -/
def guarded (refused : Refusals → Bool) (name : String) (action : EStateM Error HeldStore α) :
    EStateM Error FaultyStore α := fun store =>
  if refused store.refusals then .error (.storage (.stated false (name ++ " refused"))) store
  else
    match action store.inner with
    | .ok a inner => .ok a { store with inner }
    | .error e inner => .error e { store with inner }

instance : Store FaultyStore where
  lastModified := guarded Refusals.lastModified "last_modified" Store.lastModified
  load := guarded Refusals.load "load" Store.load
  save bytes := guarded Refusals.save "save" (Store.save bytes)

end FaultyStore

end Landmark
