import Landmark.Memory.Image
import Landmark.Json.Schema
import Landmark.Text.Blank

/-!
# Findings

Where a pattern was found, as a distance from the module's base, and in which build of the module.
A finding holds for a module of the same build only, wherever that is mapped. It is stored with its
distance as signed hexadecimal text.
-/

namespace Landmark

/-- A place in a module, valid for one build. -/
structure Finding where
  build : String
  value : Int64
deriving DecidableEq, Repr, Inhabited

namespace Finding

/-- The finding of an address in a module. -/
def capture (address : UInt64) (image : Image) : Finding :=
  ⟨image.version, image.offsetOf address⟩

/-- Whether the finding is of the module's build. The stored build is read trimmed. -/
def isCurrent (finding : Finding) (image : Image) : Bool :=
  Text.trim finding.build == image.version

/-- The address of the finding in a module of its build. -/
def address? (finding : Finding) (image : Image) : Option UInt64 :=
  if finding.isCurrent image then some (image.addressAt finding.value) else none

/-- The stored text of a distance. -/
def writeValue (value : Int64) : String :=
  Numeral.signedHex value.toInt

/-- Reads a signed number of 64 bits from hexadecimal digits with at most one sign, which has to be
a minus. -/
def readDigits : List Char → Option Int64
  | '+' :: _ => none
  | '-' :: '+' :: _ => none
  | '-' :: cs =>
    match Numeral.readChars 16 (UInt64.size / 2) cs with
    | .ok value => some (Int64.ofInt (-(value : Int)))
    | .error _ => none
  | cs =>
    match Numeral.readChars 16 (UInt64.size / 2 - 1) cs with
    | .ok value => some (Int64.ofInt value)
    | .error _ => none

/-- Reads the stored text of a distance. -/
def readValue (s : String) : Except DocumentFault Int64 :=
  match readDigits (Text.trim s).toList with
  | some value => .ok value
  | none => .error (.badCachedValue s)

/-- How a finding is read from JSON. -/
def schema : Schema Finding where
  names := ["build", "value"]
  required := ["build", "value"]
  blank := ⟨"", 0⟩
  put name value :=
    match name with
    | "build" => (Json.readText value).map fun build finding => { finding with build }
    | "value" => do
      let value ← readValue (← Json.readText value)
      return fun finding => { finding with value }
    | _ => .error .unreadable

/-- A finding as a JSON value. -/
def toJson (finding : Finding) : Json :=
  .object [Json.field "build" (.text finding.build),
    Json.field "value" (.text (writeValue finding.value))]

end Finding

end Landmark
