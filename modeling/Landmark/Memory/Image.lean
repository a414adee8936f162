import Landmark.Memory.Span

/-!
# Module images

A module is mapped at a base address. Places in it are kept as signed distances from that base, so
that they outlive the mapping: `offsetOf` and `addressAt` undo each other at every base.
-/

namespace Landmark

/-- Where a module is mapped and which build it is. -/
structure Image where
  base : UInt64
  size : Nat
  version : String
deriving DecidableEq, Repr, Inhabited

namespace Image

/-- The addresses of the module. -/
def span (image : Image) : Span :=
  Span.ofLength image.base image.size

/-- The signed distance of an address from the base. -/
def offsetOf (image : Image) (address : UInt64) : Int64 :=
  (address - image.base).toInt64

/-- The address at a signed distance from the base. -/
def addressAt (image : Image) (offset : Int64) : UInt64 :=
  image.base + offset.toUInt64

end Image

end Landmark
