import Landmark.Text.Numeral
import Landmark.Text.Shapeless

/-!
# Texts shown between quotes

A text is shown so that every character of it can be told: quotes, backslashes and the common
control characters by a short escape, characters without a shape by their code points.
-/

namespace Landmark.Text

/-- One character between quotes. -/
def shownChar (c : Char) : List Char :=
  if c = '"' then ['\\', '"']
  else if c = '\\' then ['\\', '\\']
  else if c = '\n' then ['\\', 'n']
  else if c = '\r' then ['\\', 'r']
  else if c = '\t' then ['\\', 't']
  else if c = '\x00' then ['\\', '0']
  else if isShapeless c then
    '\\' :: 'u' :: '{' :: ((Numeral.digits 16 c.toNat).map Char.toLower ++ ['}'])
  else [c]

/-- A text between quotes. -/
def shown (s : String) : String :=
  String.ofList ('"' :: (s.toList.flatMap shownChar ++ ['"']))

end Landmark.Text
