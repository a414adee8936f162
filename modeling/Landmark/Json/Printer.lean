import Landmark.Json.Value
import Landmark.Text.Numeral

/-!
# Writing JSON

`compact` writes a value without any blanks, `pretty` over several lines with two blanks for each
level; an empty array or object stays on one line in both. Every function here puts its text in
front of what is to follow, so a text is built in one pass.
-/

namespace Landmark.Json

/-- The escape of a character inside a text, without the backslash, for those that have a short
one. -/
def shortEscape (c : Char) : Option Char :=
  if c = '"' then some '"'
  else if c = '\\' then some '\\'
  else if c = '\x08' then some 'b'
  else if c = '\x0c' then some 'f'
  else if c = '\n' then some 'n'
  else if c = '\r' then some 'r'
  else if c = '\t' then some 't'
  else none

/-- The lower-case hexadecimal digit of a value below sixteen. -/
def hexDigit (value : Nat) : Char :=
  (Numeral.digit value).toLower

/-- One character inside a text: control characters are escaped, and so are quotes and
backslashes. -/
def quoteChar (c : Char) (rest : List Char) : List Char :=
  match shortEscape c with
  | some e => '\\' :: e :: rest
  | none =>
    if c.toNat < 0x20 then
      '\\' :: 'u' :: '0' :: '0' :: hexDigit (c.toNat / 16) :: hexDigit (c.toNat % 16) :: rest
    else c :: rest

/-- A text between quotes. -/
def quote (s : String) (rest : List Char) : List Char :=
  '"' :: s.toList.foldr quoteChar ('"' :: rest)

/-- The text of a value that is neither an array nor an object. What cannot be written leaves no
text. -/
def scalar (value : Json) (rest : List Char) : List Char :=
  match value with
  | .null => 'n' :: 'u' :: 'l' :: 'l' :: rest
  | .bool true => 't' :: 'r' :: 'u' :: 'e' :: rest
  | .bool false => 'f' :: 'a' :: 'l' :: 's' :: 'e' :: rest
  | .natural n => Numeral.digits 10 n ++ rest
  | .string (some s) => quote s rest
  | _ => rest

mutual

/-- A value without blanks. -/
def compactTo : Json → List Char → List Char
  | .array items, rest => '[' :: compactItems items (']' :: rest)
  | .object fields, rest => '{' :: compactFields fields ('}' :: rest)
  | value, rest => scalar value rest

/-- The items of an array without blanks. -/
def compactItems : List Json → List Char → List Char
  | [], rest => rest
  | item :: items, rest =>
    item.compactTo (if items.isEmpty then rest else ',' :: compactItems items rest)

/-- The fields of an object without blanks. -/
def compactFields : List (Option String × Json) → List Char → List Char
  | [], rest => rest
  | (name, value) :: fields, rest =>
    quote (name.getD "") (':' :: value.compactTo
      (if fields.isEmpty then rest else ',' :: compactFields fields rest))

end

/-- The start of a new line at a level. -/
def newLine (level : Nat) (rest : List Char) : List Char :=
  '\n' :: (List.replicate (2 * level) ' ' ++ rest)

mutual

/-- A value over several lines, its own lines being indented to `level`. -/
def prettyTo (level : Nat) : Json → List Char → List Char
  | .array items, rest =>
    if items.isEmpty then '[' :: ']' :: rest
    else '[' :: prettyItems (level + 1) items (newLine level (']' :: rest))
  | .object fields, rest =>
    if fields.isEmpty then '{' :: '}' :: rest
    else '{' :: prettyFields (level + 1) fields (newLine level ('}' :: rest))
  | value, rest => scalar value rest

/-- The items of an array, each on a line of its own. -/
def prettyItems (level : Nat) : List Json → List Char → List Char
  | [], rest => rest
  | item :: items, rest =>
    newLine level (item.prettyTo level
      (if items.isEmpty then rest else ',' :: prettyItems level items rest))

/-- The fields of an object, each on a line of its own. -/
def prettyFields (level : Nat) : List (Option String × Json) → List Char → List Char
  | [], rest => rest
  | (name, value) :: fields, rest =>
    newLine level (quote (name.getD "") (':' :: ' ' :: value.prettyTo level
      (if fields.isEmpty then rest else ',' :: prettyFields level fields rest)))

end

/-- The text of a value without blanks. -/
def compact (value : Json) : String :=
  String.ofList (value.compactTo [])

/-- The text of a value over several lines. -/
def pretty (value : Json) : String :=
  String.ofList (value.prettyTo 0 [])

end Landmark.Json
