import Landmark.Error
import Landmark.Text.Pieces
import Landmark.Text.Shown

/-!
# The text layout of signatures

A signature is written as tokens between separators. A token that contains the wildcard text stands
for any byte; any other token is a byte in the format's radix. A format is usable when its separator
is not empty, its wildcard cannot be mistaken for a decimal numeral and its radix has digits.
-/

namespace Landmark

/-- How signatures are written: between which separators, with which wildcard, in which radix. -/
structure SignatureFormat where
  separator : String := " "
  wildcard : String := "?"
  radix : Nat := 16
deriving DecidableEq, Repr, Inhabited

namespace SignatureFormat

/-- Accepts the formats whose texts can be read back; the first fault found is reported. -/
def validate (format : SignatureFormat) : Except SignatureFault Unit :=
  if format.separator.toList = [] then .error .emptySeparator
  else if format.wildcard.toList.all Char.isDigit then
    .error (.digitWildcard format.wildcard)
  else if 2 ≤ format.radix ∧ format.radix ≤ 36 then .ok ()
  else .error (.radixOutside format.radix)

/-- The token of a byte: two digits in radix sixteen, else as few digits as it takes. -/
def byteToken (format : SignatureFormat) (byte : UInt8) : String :=
  if format.radix = 16 ∧ byte.toNat < 16 then "0" ++ Numeral.hex byte.toNat
  else Numeral.write format.radix byte.toNat

/-- A format as text. -/
def description (format : SignatureFormat) : String :=
  "PatternFormat \x7b separator: " ++ Text.shown format.separator ++ ", wildcard: "
    ++ Text.shown format.wildcard ++ ", radix: " ++ Numeral.write 10 format.radix ++ " \x7d"

end SignatureFormat

end Landmark
