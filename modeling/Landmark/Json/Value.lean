/-!
# JSON values

A value as it stands in a text. Objects keep their fields in order and repeated ones too; whether a
repetition is a fault is for the reader of the object to say.

Three things that a text may hold and that nothing in this library takes as a value of its own are
kept apart: a text with half a surrogate pair (`string none`, and such a field name), a number that
is not a plain natural number (`number`), and the place where the text stops being JSON or nests too
deeply (`cut`, always the last thing in what surrounds it).
-/

namespace Landmark

/-- A JSON value. -/
inductive Json
  | null
  | bool (value : Bool)
  | natural (value : Nat)
  | number
  | string (value : Option String)
  | array (items : List Json)
  | object (fields : List (Option String × Json))
  | cut
deriving Inhabited

namespace Json

/-- A text. -/
def text (s : String) : Json :=
  .string (some s)

/-- A field of an object. -/
def field (name : String) (value : Json) : Option String × Json :=
  (some name, value)

/-- A field that is left out when there is no value. -/
def field? (name : String) (value : Option Json) : List (Option String × Json) :=
  (value.map (field name)).toList

mutual

/-- Whether the text went on being JSON up to the end of the value. -/
def isWhole : Json → Bool
  | .array items => itemsWhole items
  | .object fields => fieldsWhole fields
  | .cut => false
  | _ => true

/-- Whether every item is whole. -/
def itemsWhole : List Json → Bool
  | [] => true
  | item :: items => item.isWhole && itemsWhole items

/-- Whether every field's value is whole. -/
def fieldsWhole : List (Option String × Json) → Bool
  | [] => true
  | (_, value) :: fields => value.isWhole && fieldsWhole fields

end

mutual

/-- How many arrays and objects are inside each other. -/
def depth : Json → Nat
  | .array items => itemsDepth items + 1
  | .object fields => fieldsDepth fields + 1
  | _ => 0

/-- The depth of the deepest item. -/
def itemsDepth : List Json → Nat
  | [] => 0
  | item :: items => max item.depth (itemsDepth items)

/-- The depth of the deepest field. -/
def fieldsDepth : List (Option String × Json) → Nat
  | [] => 0
  | (_, value) :: fields => max value.depth (fieldsDepth fields)

end

end Json

end Landmark
