import Landmark.Task

/-!
# Reading memory

A `Memory` gives the bytes at an address, or says why it cannot. Values are little endian: a read of
`n` bytes takes the first `n` bytes that come back and fails when fewer do. Signed values are the
two's complement reading of the same bytes. A pointer is as wide as the target's pointers are; only
four and eight bytes are supported, and another width fails without a read.
-/

namespace Landmark

/-- A view of a target's memory. -/
structure Memory where
  /-- A copy of so many bytes at an address. -/
  read : UInt64 → Nat → Except Error (List UInt8)
  /-- The bytes themselves, where they can be had without a copy. -/
  view : UInt64 → Nat → Option (List UInt8) := fun _ _ => none
  pointerWidth : Nat := 8

namespace Memory

variable {σ : Type}

/-- The number whose little-endian digits in radix 256 are the given bytes. -/
def littleEndian : List UInt8 → Nat
  | [] => 0
  | byte :: bytes => byte.toNat + 256 * littleEndian bytes

/-- The unsigned value of the first `size` bytes of what a read of them gave. -/
def decode (address : UInt64) (size : Nat) (bytes : List UInt8) : Except Error Nat :=
  if bytes.length < size then .error (.readFailed address (.short size bytes.length))
  else .ok (littleEndian (bytes.take size))

/-- Copies bytes out of memory. -/
def readBytes (memory : Memory) (address : UInt64) (size : Nat) : Task σ (List UInt8) := do
  Task.record (.read address size)
  Task.ofExcept (memory.read address size)

/-- Reads an unsigned value of `size` bytes. -/
def readUnsigned (memory : Memory) (size : Nat) (address : UInt64) : Task σ Nat := do
  let bytes ← memory.readBytes address size
  Task.ofExcept (decode address size bytes)

/-- Reads a signed value of `size` bytes. -/
def readSigned (memory : Memory) (size : Nat) (address : UInt64) : Task σ Int := do
  let value ← memory.readUnsigned size address
  return (value : Int).bmod (1 <<< (8 * size))

/-- The number of bytes of a pointer, if pointers of that width can be read. -/
def pointerSize (width : Nat) (address : UInt64) : Except Error Nat :=
  if width = 4 ∨ width = 8 then .ok width
  else .error (.readFailed address (.pointerWidth width))

/-- Reads a pointer. -/
def readPointer (memory : Memory) (address : UInt64) : Task σ UInt64 := do
  let size ← Task.ofExcept (pointerSize memory.pointerWidth address)
  return UInt64.ofNat (← memory.readUnsigned size address)

end Memory

end Landmark
