/-!
# Numerals in any radix up to thirty-six

`read` reads an unsigned numeral with a bound on its value: one leading `+` is allowed when more
text follows, digits are taken left to right, and at each digit a foreign character is reported
before the bound is checked. `write` gives the digits of a number in upper case and without leading
zeros, so reading what was written gives the number back.
-/

namespace Landmark

/-- Why a text is not a numeral of the wanted size. -/
inductive NumeralFault
  | empty
  | invalidDigit
  | tooLarge
deriving DecidableEq, Repr, Inhabited

/-- The words in which a fault is reported. -/
def NumeralFault.message : NumeralFault → String
  | .empty => "cannot parse integer from empty string"
  | .invalidDigit => "invalid digit found in string"
  | .tooLarge => "number too large to fit in target type"

namespace Numeral

/-- The value of an ASCII digit or letter, the letters of either case counting from ten. -/
def digitValue (c : Char) : Option Nat :=
  if '0' ≤ c ∧ c ≤ '9' then some (c.toNat - '0'.toNat)
  else if 'a' ≤ c ∧ c ≤ 'z' then some (c.toNat - 'a'.toNat + 10)
  else if 'A' ≤ c ∧ c ≤ 'Z' then some (c.toNat - 'A'.toNat + 10)
  else none

/-- The value of a digit of the given radix. -/
def digitIn (radix : Nat) (c : Char) : Option Nat :=
  (digitValue c).filter (· < radix)

/-- Reads digits after a number that is already read, as long as the value stays within `bound`. -/
def readDigits (radix bound : Nat) : Nat → List Char → Except NumeralFault Nat
  | value, [] => .ok value
  | value, c :: cs =>
    match digitIn radix c with
    | none => .error .invalidDigit
    | some d =>
      if value * radix + d ≤ bound then readDigits radix bound (value * radix + d) cs
      else .error .tooLarge

/-- Reads an unsigned numeral of at most `bound`. -/
def readChars (radix bound : Nat) : List Char → Except NumeralFault Nat
  | [] => .error .empty
  | ['+'] => .error .invalidDigit
  | '+' :: c :: cs => readDigits radix bound 0 (c :: cs)
  | c :: cs => readDigits radix bound 0 (c :: cs)

/-- Reads an unsigned numeral of at most `bound`. -/
def read (radix bound : Nat) (s : String) : Except NumeralFault Nat :=
  readChars radix bound s.toList

/-- The digit of a value below thirty-six, letters in upper case. -/
def digit (value : Nat) : Char :=
  if value < 10 then Char.ofNat (value + '0'.toNat) else Char.ofNat (value - 10 + 'A'.toNat)

/-- The digits of a number, most significant first. -/
def digits (radix value : Nat) : List Char :=
  if _h : 2 ≤ radix ∧ radix ≤ value then
    digits radix (value / radix) ++ [digit (value % radix)]
  else [digit value]
termination_by value
decreasing_by exact Nat.div_lt_self (by omega) _h.1

/-- The numeral of a number, in upper case and without leading zeros. -/
def write (radix value : Nat) : String :=
  String.ofList (digits radix value)

/-- The upper-case hexadecimal numeral of a number. -/
def hex (value : Nat) : String :=
  write 16 value

/-- The lower-case hexadecimal numeral of a number. -/
def lowerHex (value : Nat) : String :=
  String.ofList ((digits 16 value).map Char.toLower)

/-- The upper-case hexadecimal numeral of a signed number, with `-` in front of a negative one. -/
def signedHex (value : Int) : String :=
  if value < 0 then "-" ++ hex value.natAbs else hex value.natAbs

end Numeral

end Landmark
