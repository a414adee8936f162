import Landmark.Memory.Reader

/-!
# Memory backed by a buffer

The bytes of a buffer that lies at a base address. Both a copy and a view of them exist exactly for
the stretches that lie inside the buffer.
-/

namespace Landmark

/-- Bytes that lie at a base address. -/
structure Buffer where
  base : UInt64
  bytes : List UInt8
deriving DecidableEq, Repr, Inhabited

namespace Buffer

/-- The addresses of the buffer. -/
def span (buffer : Buffer) : Span :=
  Span.ofLength buffer.base buffer.bytes.length

/-- The stretch of bytes at an address, if it lies inside the buffer. -/
def slice (buffer : Buffer) (address : UInt64) (size : Nat) : Option (List UInt8) :=
  if buffer.base ≤ address ∧
      address.toNat - buffer.base.toNat + size ≤ buffer.bytes.length then
    some ((buffer.bytes.drop (address.toNat - buffer.base.toNat)).take size)
  else none

/-- The buffer as the caller's own memory, which needs no copy to be looked at. -/
def memory (buffer : Buffer) : Memory where
  read address size :=
    match buffer.slice address size with
    | some bytes => .ok bytes
    | none => .error (.readFailed address (.outside size buffer.span))
  view := buffer.slice

end Buffer

end Landmark
