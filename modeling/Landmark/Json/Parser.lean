import Landmark.Json.Value
import Landmark.Text.Numeral

/-!
# Reading JSON

`Json.ofText` reads one value from a text, in strict JSON. It never fails: where the text stops
being JSON, or nests more deeply than there is room for, the value ends in `Json.cut`. So a reader
that walks through the value in the order of the text meets the faults of the text in their place
among its own.

The functions of `Grammar` follow the rules of the grammar. Each gives what it has read and the text
behind it, or no text when there was a cut.
-/

namespace Landmark.Json

namespace Grammar

/-- Whether a character may stand between tokens. -/
def isSpace (c : Char) : Bool :=
  c = ' ' || c = '\n' || c = '\t' || c = '\r'

/-- The text from its first character that is not a blank. -/
def skipSpace (cs : List Char) : List Char :=
  cs.dropWhile isSpace

/-- A character of a text, or a UTF-16 unit given by its number. -/
inductive Piece
  | char (c : Char)
  | unit (value : Nat)
deriving DecidableEq, Repr, Inhabited

/-- The character that a one-letter escape stands for. -/
def ofShortEscape (c : Char) : Option Char :=
  if c = '"' then some '"'
  else if c = '\\' then some '\\'
  else if c = '/' then some '/'
  else if c = 'b' then some '\x08'
  else if c = 'f' then some '\x0c'
  else if c = 'n' then some '\n'
  else if c = 'r' then some '\r'
  else if c = 't' then some '\t'
  else none

/-- The number of four hexadecimal digits. -/
def ofHexDigits (a b c d : Char) : Option Nat := do
  let a ← Numeral.digitIn 16 a
  let b ← Numeral.digitIn 16 b
  let c ← Numeral.digitIn 16 c
  let d ← Numeral.digitIn 16 d
  return ((a * 16 + b) * 16 + c) * 16 + d

/-- The pieces of a text up to the closing quote. -/
def pieces : List Char → Option (List Piece × List Char)
  | [] => none
  | '"' :: cs => some ([], cs)
  | '\\' :: 'u' :: a :: b :: c :: d :: cs => do
    let value ← ofHexDigits a b c d
    let (rest, cs) ← pieces cs
    return (.unit value :: rest, cs)
  | '\\' :: e :: cs => do
    let c ← ofShortEscape e
    let (rest, cs) ← pieces cs
    return (.char c :: rest, cs)
  | c :: cs =>
    if c = '\\' ∨ c.toNat < 0x20 then none
    else do
      let (rest, cs) ← pieces cs
      return (.char c :: rest, cs)

/-- Whether a UTF-16 unit is the first half of a pair. -/
def isHighHalf (value : Nat) : Bool :=
  0xD800 ≤ value && value < 0xDC00

/-- Whether a UTF-16 unit is the second half of a pair. -/
def isLowHalf (value : Nat) : Bool :=
  0xDC00 ≤ value && value < 0xE000

/-- The characters of a text; half a pair has none. -/
def joinPieces : List Piece → Option (List Char)
  | [] => some []
  | .char c :: rest => (joinPieces rest).map (c :: ·)
  | .unit high :: .unit low :: rest =>
    if isHighHalf high && isLowHalf low then
      (joinPieces rest).map
        (Char.ofNat (0x10000 + (high - 0xD800) * 0x400 + (low - 0xDC00)) :: ·)
    else if isHighHalf high || isLowHalf high then none
    else (joinPieces (.unit low :: rest)).map (Char.ofNat high :: ·)
  | .unit value :: rest =>
    if isHighHalf value || isLowHalf value then none
    else (joinPieces rest).map (Char.ofNat value :: ·)

/-- A text up to its closing quote. -/
def quoted (cs : List Char) : Option (Option String × List Char) := do
  let (pieces, rest) ← pieces cs
  return ((joinPieces pieces).map String.ofList, rest)

/-- The digits at the front of a text; there has to be one. -/
def someDigits (cs : List Char) : Option (List Char × List Char) :=
  if (cs.takeWhile Char.isDigit).isEmpty then none
  else some (cs.takeWhile Char.isDigit, cs.dropWhile Char.isDigit)

/-- The whole part of a number: it starts with zero only if it is zero. -/
def wholePart : List Char → Option (List Char × List Char)
  | '0' :: cs => if (cs.head?.map Char.isDigit).getD false then none else some (['0'], cs)
  | cs => someDigits cs

/-- The text behind the fraction of a number, and whether there was one. -/
def skipFraction : List Char → Option (Bool × List Char)
  | '.' :: cs => (someDigits cs).map fun found => (true, found.2)
  | cs => some (false, cs)

/-- The text behind the sign of an exponent. -/
def skipSign : List Char → List Char
  | '+' :: cs => cs
  | '-' :: cs => cs
  | cs => cs

/-- The text behind the exponent of a number, and whether there was one. -/
def skipExponent : List Char → Option (Bool × List Char)
  | 'e' :: cs => (someDigits (skipSign cs)).map fun found => (true, found.2)
  | 'E' :: cs => (someDigits (skipSign cs)).map fun found => (true, found.2)
  | cs => some (false, cs)

/-- The number whose decimal digits are given. -/
def ofDigits (digits : List Char) : Nat :=
  digits.foldl (fun value c => value * 10 + (c.toNat - '0'.toNat)) 0

/-- A number that has no minus sign. -/
def unsigned (cs : List Char) : Option (Json × List Char) := do
  let (digits, cs) ← wholePart cs
  let (fraction, cs) ← skipFraction cs
  let (exponent, cs) ← skipExponent cs
  return (if fraction || exponent then .number else .natural (ofDigits digits), cs)

/-- A number. -/
def number : List Char → Option (Json × List Char)
  | '-' :: cs => (unsigned cs).map fun found => (.number, found.2)
  | cs => unsigned cs

/-- A value that is neither an array nor an object. -/
def atom : List Char → Option (Json × List Char)
  | 'n' :: 'u' :: 'l' :: 'l' :: cs => some (.null, cs)
  | 't' :: 'r' :: 'u' :: 'e' :: cs => some (.bool true, cs)
  | 'f' :: 'a' :: 'l' :: 's' :: 'e' :: cs => some (.bool false, cs)
  | '"' :: cs => (quoted cs).map fun found => (.string found.1, found.2)
  | cs => number cs

/-- The name of a field and the colon behind it. -/
def fieldName (cs : List Char) : Option (Option String × List Char) :=
  match skipSpace cs with
  | '"' :: cs => do
    let (name, cs) ← quoted cs
    match skipSpace cs with
    | ':' :: cs => some (name, cs)
    | _ => none
  | _ => none

mutual

/-- One value, with room for so many levels of arrays and objects. -/
def value : (fuel room : Nat) → List Char → Json × Option (List Char)
  | 0, _, _ => (.cut, none)
  | fuel + 1, room, cs =>
    match skipSpace cs with
    | '[' :: cs =>
      match room with
      | 0 => (.cut, none)
      | room + 1 =>
        match skipSpace cs with
        | ']' :: cs => (.array [], some cs)
        | _ =>
          let found := items fuel room cs
          (.array found.1, found.2)
    | '{' :: cs =>
      match room with
      | 0 => (.cut, none)
      | room + 1 =>
        match skipSpace cs with
        | '}' :: cs => (.object [], some cs)
        | _ =>
          let found := fields fuel room cs
          (.object found.1, found.2)
    | cs =>
      match atom cs with
      | some (found, cs) => (found, some cs)
      | none => (.cut, none)

/-- The items of an array from one item on. -/
def items : (fuel room : Nat) → List Char → List Json × Option (List Char)
  | 0, _, _ => ([.cut], none)
  | fuel + 1, room, cs =>
    match value fuel room cs with
    | (item, none) => ([item], none)
    | (item, some cs) =>
      match skipSpace cs with
      | ',' :: cs =>
        let found := items fuel room cs
        (item :: found.1, found.2)
      | ']' :: cs => ([item], some cs)
      | _ => ([item, .cut], none)

/-- The fields of an object from one field on. -/
def fields : (fuel room : Nat) → List Char → List (Option String × Json) × Option (List Char)
  | 0, _, _ => ([(none, .cut)], none)
  | fuel + 1, room, cs =>
    match fieldName cs with
    | none => ([(none, .cut)], none)
    | some (name, cs) =>
      match value fuel room cs with
      | (found, none) => ([(name, found)], none)
      | (found, some cs) =>
        match skipSpace cs with
        | ',' :: cs =>
          let rest := fields fuel room cs
          ((name, found) :: rest.1, rest.2)
        | '}' :: cs => ([(name, found)], some cs)
        | _ => ([(name, found), (none, .cut)], none)

end

end Grammar

/-- The value a text holds, with room for so many levels of arrays and objects, and whether nothing
but blanks follows it. -/
def ofText (room : Nat) (cs : List Char) : Json × Bool :=
  match Grammar.value (2 * cs.length + 2) room cs with
  | (found, none) => (found, false)
  | (found, some rest) => (found, (Grammar.skipSpace rest).isEmpty)

/-- The levels of arrays and objects that a text with a meaning may have. -/
def maxDepth : Nat := 127

end Landmark.Json
