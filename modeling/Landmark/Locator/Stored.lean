import Landmark.Json.Printer
import Landmark.Json.Schema
import Landmark.Memory.Image
import Landmark.Signature.Matching

/-!
# The stored form of settings

Images and signature formats are stored as records that may hold fields of later versions, which are
passed over; a format may leave out any of its fields. An algorithm is stored by its name, or as an
object whose only field has that name and no value.
-/

namespace Landmark

/-- How an image is read from JSON. -/
def Image.schema : Schema Image where
  names := ["base_address", "size", "version"]
  required := ["base_address", "size", "version"]
  blank := ⟨0, 0, ""⟩
  put name value :=
    match name with
    | "base_address" =>
      (Json.readNatural (UInt64.size - 1) value).map
        fun base image => { image with base := UInt64.ofNat base }
    | "size" => (Json.readNatural (UInt64.size - 1) value).map fun size image => { image with size }
    | "version" => (Json.readText value).map fun version image => { image with version }
    | _ => .error .unreadable
  lenient := true

/-- An image as a JSON value. -/
def Image.toJson (image : Image) : Json :=
  .object [Json.field "base_address" (.natural image.base.toNat),
    Json.field "size" (.natural image.size), Json.field "version" (.text image.version)]

/-- How a signature format is read from JSON. -/
def SignatureFormat.schema : Schema SignatureFormat where
  names := ["separator", "wildcard", "radix"]
  required := []
  blank := {}
  put name value :=
    match name with
    | "separator" => (Json.readText value).map fun separator format => { format with separator }
    | "wildcard" => (Json.readText value).map fun wildcard format => { format with wildcard }
    | "radix" =>
      (Json.readNatural (UInt32.size - 1) value).map fun radix format => { format with radix }
    | _ => .error .unreadable
  lenient := true

/-- A signature format as a JSON value. -/
def SignatureFormat.toJson (format : SignatureFormat) : Json :=
  .object [Json.field "separator" (.text format.separator),
    Json.field "wildcard" (.text format.wildcard), Json.field "radix" (.natural format.radix)]

namespace Algorithm

/-- The algorithm of a stored name. -/
def ofVariantName? (s : String) : Option Algorithm :=
  all.find? fun algorithm => algorithm.variantName == s

/-- Reads an algorithm from a JSON value. -/
def read (value : Json) : Except DocumentFault Algorithm :=
  let name :=
    match value with
    | .string name => name
    | .object [(name, .null)] => name
    | _ => none
  match name.bind ofVariantName? with
  | some algorithm => .ok algorithm
  | none => .error .unreadable

/-- An algorithm as a JSON value. -/
def toJson (algorithm : Algorithm) : Json :=
  .text algorithm.variantName

end Algorithm

end Landmark
