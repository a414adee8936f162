import Landmark.Text.Numeral

/-!
# Spans of addresses

A span is half open: it holds the addresses from `first` up to but not including `last`. A span
whose end is not above its start is empty. Lengths are measured by subtraction, so the span that is
asked to reach past the top address stops at the top address.
-/

namespace Landmark

/-- The addresses from `first` up to but not including `last`. -/
structure Span where
  first : UInt64
  last : UInt64
deriving DecidableEq, Repr, Inhabited

namespace Span

/-- The span of `length` addresses from `first`, cut off at the top address. -/
def ofLength (first : UInt64) (length : Nat) : Span :=
  ⟨first, UInt64.ofNat (min (first.toNat + length) (UInt64.size - 1))⟩

/-- The number of addresses in the span. -/
def length (s : Span) : Nat :=
  s.last.toNat - s.first.toNat

/-- Whether the span holds no address. -/
def isEmpty (s : Span) : Bool :=
  s.last ≤ s.first

/-- Whether the span holds an address. -/
def contains (s : Span) (address : UInt64) : Bool :=
  s.first ≤ address && address < s.last

/-- The span as a half-open interval of upper-case hexadecimal addresses. -/
def text (s : Span) : String :=
  "[0x" ++ Numeral.hex s.first.toNat ++ ", 0x" ++ Numeral.hex s.last.toNat ++ ")"

end Span

end Landmark
