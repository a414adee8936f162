import Landmark.Error
import Landmark.Json.Parser

/-!
# Reading records from JSON

A `Schema` says which fields a record has and how each is read. A record may stand as an object,
with its fields in any order, or as an array of its fields in the declared order. A repeated field
is a fault, a field that is not declared is one unless the schema is lenient, and so is a required
field that is missing. Fields are read in the order of the text, so the first fault of the text is
the one that is reported.
-/

namespace Landmark

namespace Json

/-- The fields of a record. The items of an array take the declared names in turn; further items
have no name. -/
def asFields (names : List String) : Json → Option (List (Option String × Json))
  | .object fields => some fields
  | .array items =>
    some (((names.map some) ++ List.replicate (items.length - names.length) none).zip items)
  | _ => none

/-- A text that has characters only. -/
def readText : Json → Except DocumentFault String
  | .string (some s) => .ok s
  | _ => .error .unreadable

/-- A natural number of at most `bound`. -/
def readNatural (bound : Nat) : Json → Except DocumentFault Nat
  | .natural n => if n ≤ bound then .ok n else .error .unreadable
  | _ => .error .unreadable

/-- A value that may be absent. -/
def readOption {α : Type} (read : Json → Except DocumentFault α) :
    Json → Except DocumentFault (Option α)
  | .null => .ok none
  | value => (read value).map some

/-- An array of values. -/
def readList {α : Type} (read : Json → Except DocumentFault α) :
    Json → Except DocumentFault (List α)
  | .array items => items.mapM read
  | _ => .error .unreadable

/-- Reads the value that is all of a text. Faults inside the value come before faults behind it. -/
def readAll {α : Type} (room : Nat) (read : Json → Except DocumentFault α) (cs : List Char) :
    Except DocumentFault α := do
  let (value, alone) := ofText room cs
  let found ← read value
  if alone then .ok found else .error .unreadable

end Json

/-- How a record is read from JSON. -/
structure Schema (ρ : Type) where
  /-- The names of the fields in their declared order. -/
  names : List String
  /-- The fields that have to be there. -/
  required : List String
  /-- The record before any field is read. -/
  blank : ρ
  /-- Reads the value of a declared field, as a change of the record. -/
  put : String → Json → Except DocumentFault (ρ → ρ)
  /-- Whether fields that are not declared are passed over. -/
  lenient : Bool := false

namespace Schema

variable {ρ : Type}

/-- Reads the fields of a record, in order, as changes of the record under their names. -/
def readFields (schema : Schema ρ) :
    (seen : List String) → List (Option String × Json) →
      Except DocumentFault (List (String × (ρ → ρ)))
  | _, [] => .ok []
  | _, (none, _) :: _ => .error .unreadable
  | seen, (some name, value) :: fields =>
    if name ∈ schema.names then
      if name ∈ seen then .error .unreadable
      else do
        let change ← schema.put name value
        let changes ← schema.readFields (name :: seen) fields
        return (name, change) :: changes
    else if schema.lenient && value.isWhole then schema.readFields seen fields
    else .error .unreadable

/-- Reads a record. -/
def read (schema : Schema ρ) (value : Json) : Except DocumentFault ρ :=
  match value.asFields schema.names with
  | none => .error .unreadable
  | some fields => do
    let changes ← schema.readFields [] fields
    if schema.required.all fun name => (changes.map Prod.fst).contains name then
      return changes.foldl (fun record change => change.2 record) schema.blank
    else throw .unreadable

end Schema

end Landmark
