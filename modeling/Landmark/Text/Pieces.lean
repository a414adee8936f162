/-!
# Pieces between separators

`splitOn` cuts a text at every occurrence of a separator, the leftmost first and never overlapping,
and keeps the empty pieces; `pieces` drops them. The separator is expected to be non-empty.
-/

namespace Landmark.Text

/-- The pieces of a text between the occurrences of a separator, empty ones included. -/
def splitOn (separator : List Char) : List Char → List (List Char)
  | [] => [[]]
  | c :: cs =>
    if separator.isPrefixOf (c :: cs) then
      [] :: splitOn separator (cs.drop (separator.length - 1))
    else
      match splitOn separator cs with
      | [] => [[c]]
      | piece :: rest => (c :: piece) :: rest
termination_by cs => cs.length
decreasing_by
  all_goals simp only [List.length_cons, List.length_drop]
  all_goals omega

/-- The non-empty pieces of a text between the occurrences of a separator. -/
def pieces (separator text : String) : List String :=
  ((splitOn separator.toList text.toList).filter fun piece => !piece.isEmpty).map String.ofList

/-- Whether one text occurs inside another; the empty text occurs everywhere. -/
def occursIn (sought : List Char) : List Char → Bool
  | [] => sought.isEmpty
  | c :: cs => sought.isPrefixOf (c :: cs) || occursIn sought cs

/-- The text with every line feed written as a space. -/
def joinLines (s : String) : String :=
  String.ofList (s.toList.map fun c => if c = '\n' then ' ' else c)

/-- Whether two texts agree when ASCII letters are taken without case. -/
def sameIgnoringCase (s t : String) : Bool :=
  s.toList.map Char.toLower == t.toList.map Char.toLower

end Landmark.Text
