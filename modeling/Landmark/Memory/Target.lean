import Landmark.Memory.Image
import Landmark.Memory.Reader

/-!
# Targets and access to them

A target is a module with its memory. When the caller runs inside the target its memory is looked at
in place, otherwise a whole span is copied out with one read; an empty span is neither looked at nor
read.
-/

namespace Landmark

/-- A module and the memory it lies in. -/
structure Target where
  image : Image
  memory : Memory
  /-- Whether the caller runs inside the target. -/
  inside : Bool

/-- How the bytes of a span are reached. -/
inductive Access
  | inPlace
  | copied
deriving DecidableEq, Repr, Inhabited

namespace Access

/-- The way that fits a target. -/
def of (target : Target) : Access :=
  if target.inside then .inPlace else .copied

/-- The bytes of a span. -/
def bytes {σ : Type} (access : Access) (memory : Memory) (span : Span) : Task σ (List UInt8) :=
  if span.isEmpty then return []
  else
    match access with
    | .inPlace =>
      match memory.view span.first span.length with
      | some bytes => return bytes
      | none => throw (.readFailed span.first (.notAddressable span))
    | .copied => do
      let bytes ← memory.readBytes span.first span.length
      if bytes.length = span.length then return bytes
      else throw (.readFailed span.first (.short span.length bytes.length))

end Access

end Landmark
