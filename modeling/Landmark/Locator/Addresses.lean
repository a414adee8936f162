/-!
# Resolved addresses

The addresses of names that were resolved, for as long as a process runs. The first address of a
name stays its address until all are forgotten.
-/

namespace Landmark

/-- Addresses by name. -/
structure Addresses where
  entries : List (String × UInt64) := []
deriving DecidableEq, Repr, Inhabited

namespace Addresses

/-- The address of a name. -/
def get? (addresses : Addresses) (name : String) : Option UInt64 :=
  addresses.entries.lookup name

/-- Whether a name has an address. -/
def contains (addresses : Addresses) (name : String) : Bool :=
  (addresses.get? name).isSome

/-- Gives a name an address unless it has one; the result holds the address that it now has. -/
def insert (addresses : Addresses) (name : String) (address : UInt64) : UInt64 × Addresses :=
  match addresses.get? name with
  | some known => (known, addresses)
  | none => (address, ⟨(name, address) :: addresses.entries⟩)

/-- The number of names. -/
def size (addresses : Addresses) : Nat :=
  addresses.entries.length

/-- Whether no name has an address. -/
def isEmpty (addresses : Addresses) : Bool :=
  addresses.entries.isEmpty

end Addresses

end Landmark
