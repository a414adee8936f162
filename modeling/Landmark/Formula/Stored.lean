import Landmark.Formula.Basic
import Landmark.Json.Printer
import Landmark.Json.Schema

/-!
# The stored form of formulas

A formula is stored as an object whose field `type` tells its kind, or as an array with the kind in
front and the fields behind it. The kind may stand anywhere among the fields. Below the root the
kind may also be given by its number.

A value is read from its leaves upwards: each part of it is seen as what a field of a formula can
be, and a part that is a formula has been read as one before the formula around it is.
-/

namespace Landmark

namespace Formula

/-- The kinds of formulas. -/
inductive Kind
  | constant
  | pattern
  | unary
  | binary
deriving DecidableEq, Repr, Inhabited

namespace Kind

/-- All kinds in the order of their numbers. -/
def all : List Kind :=
  [.constant, .pattern, .unary, .binary]

/-- The stored name of a kind. -/
def name : Kind → String
  | .constant => "constant"
  | .pattern => "pattern"
  | .unary => "operator"
  | .binary => "binary_operator"

/-- The fields of a kind in their declared order. -/
def fields : Kind → List String
  | .constant => ["value"]
  | .pattern => ["name"]
  | .unary => ["operator", "value", "operand"]
  | .binary => ["operator", "target", "value"]

end Kind

/-- The field that tells the kind. -/
def kindField : String := "type"

/-- A formula as a JSON value. -/
def toJson : Formula → Json
  | .constant value =>
    .object [Json.field kindField (.text Kind.constant.name), Json.field "value" (.text value)]
  | .pattern name =>
    .object [Json.field kindField (.text Kind.pattern.name), Json.field "name" (.text name)]
  | .unary operator value operand =>
    .object ([Json.field kindField (.text Kind.unary.name), Json.field "operator" (.text operator)]
      ++ Json.field? "value" (value.map .text) ++ [Json.field "operand" operand.toJson])
  | .binary operator target value =>
    .object [Json.field kindField (.text Kind.binary.name), Json.field "operator" (.text operator),
      Json.field "target" target.toJson, Json.field "value" value.toJson]

/-- What a field of a formula can be. -/
inductive Part
  | text (s : String)
  | absent
  | natural (value : Nat)
  | formula (value : Formula)
  | other
deriving DecidableEq, Repr, Inhabited

namespace Part

/-- The text a part is. -/
def text? : Part → Option String
  | .text s => some s
  | _ => none

/-- The formula a part is. -/
def formula? : Part → Option Formula
  | .formula value => some value
  | _ => none

/-- The text a part is, or no text where it is absent. -/
def optional? : Part → Option (Option String)
  | .text s => some (some s)
  | .absent => some none
  | _ => none

/-- The kind a part tells; below the root by number too. -/
def kind? (nested : Bool) : Part → Option Kind
  | .text s => Kind.all.find? fun kind => kind.name == s
  | .natural value => if nested then Kind.all[value]? else none
  | _ => none

end Part

/-- The formula of a kind that has the given parts as fields. -/
def ofParts (kind : Kind) (parts : List (String × Part)) : Option Formula :=
  match kind with
  | .constant => do
    let value ← (← parts.lookup "value").text?
    return .constant value
  | .pattern => do
    let name ← (← parts.lookup "name").text?
    return .pattern name
  | .unary => do
    let operator ← (← parts.lookup "operator").text?
    let value ← ((parts.lookup "value").getD .absent).optional?
    let operand ← (← parts.lookup "operand").formula?
    return .unary operator value operand
  | .binary => do
    let operator ← (← parts.lookup "operator").text?
    let target ← (← parts.lookup "target").formula?
    let value ← (← parts.lookup "value").formula?
    return .binary operator target value

/-- The parts under their names, if each has a declared name of its own. -/
def declared (names : List String) : List (Option String × Part) → Option (List (String × Part))
  | [] => some []
  | (none, _) :: _ => none
  | (some name, part) :: parts =>
    if name ∈ names then do
      let rest ← declared (names.erase name) parts
      return (name, part) :: rest
    else none

/-- The formula whose fields are the given parts. -/
def ofFields (nested : Bool) (parts : List (Option String × Part)) : Option Formula :=
  match parts.filter fun part => part.1 == some kindField with
  | [(_, tag)] => do
    let kind ← tag.kind? nested
    let parts ← declared kind.fields (parts.filter fun part => part.1 != some kindField)
    ofParts kind parts
  | _ => none

/-- The formula whose kind and fields are the given parts in order. -/
def ofItems (nested : Bool) : List Part → Option Formula
  | [] => none
  | tag :: parts => do
    let kind ← tag.kind? nested
    if parts.length ≤ kind.fields.length then ofParts kind (kind.fields.zip parts) else none

/-- What a formula may turn out to be as a part of another one. -/
def Part.ofFormula? : Option Formula → Part
  | some value => .formula value
  | none => .other

mutual

/-- A JSON value as a part of a formula. -/
def toPart : Json → Part
  | .null => .absent
  | .natural value => .natural value
  | .string (some s) => .text s
  | .array items => Part.ofFormula? (ofItems true (itemParts items))
  | .object fields => Part.ofFormula? (ofFields true (fieldParts fields))
  | _ => .other

/-- The items of an array as parts of a formula. -/
def itemParts : List Json → List Part
  | [] => []
  | item :: items => toPart item :: itemParts items

/-- The fields of an object as parts of a formula. -/
def fieldParts : List (Option String × Json) → List (Option String × Part)
  | [] => []
  | (name, value) :: fields => (name, toPart value) :: fieldParts fields

end

/-- The formula that a JSON value holds. -/
def ofJson? : Json → Option Formula
  | .array items => ofItems false (itemParts items)
  | .object fields => ofFields false (fieldParts fields)
  | _ => none

/-- Reads a formula from a JSON value. -/
def read (value : Json) : Except DocumentFault Formula :=
  match ofJson? value with
  | some formula => .ok formula
  | none => .error .unreadable

/-- Reads a formula from a text. -/
def ofText (s : String) : Except Error Formula :=
  (Json.readAll Json.maxDepth read s.toList).mapError fun _ => .json

/-- The text of a formula. -/
def text (formula : Formula) : String :=
  formula.toJson.compact

end Formula

end Landmark
