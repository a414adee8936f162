/-!
# Blank characters

A character is blank when it has the Unicode property White_Space. `trim` takes blank characters
off both ends of a text; names, numerals and cached builds are all compared or read trimmed.
-/

namespace Landmark.Text

/-- The first and the last code point of each block of blank characters. -/
def blankBlocks : List (Nat × Nat) :=
  [(0x09, 0x0D), (0x20, 0x20), (0x85, 0x85), (0xA0, 0xA0), (0x1680, 0x1680), (0x2000, 0x200A),
    (0x2028, 0x2029), (0x202F, 0x202F), (0x205F, 0x205F), (0x3000, 0x3000)]

/-- Whether a character has the property White_Space. -/
def isBlank (c : Char) : Bool :=
  blankBlocks.any fun b => b.1 ≤ c.toNat && c.toNat ≤ b.2

/-- The text without the blank characters at its ends. -/
def trimChars (cs : List Char) : List Char :=
  ((cs.dropWhile isBlank).reverse.dropWhile isBlank).reverse

/-- The text without the blank characters at its ends. -/
def trim (s : String) : String :=
  String.ofList (trimChars s.toList)

end Landmark.Text
