import Landmark.Document.Basic
import Landmark.Formula.Stored

/-!
# The stored form of documents

A document is stored as the UTF-8 bytes of a JSON object over several lines. Bytes that are all
ASCII blanks are the empty document. Reading checks the document, and a document that was read
counts as unchanged.
-/

namespace Landmark

/-- How a pattern entry is read from JSON. -/
def PatternEntry.schema : Schema PatternEntry where
  names := ["name", "pattern", "cached"]
  required := ["name", "pattern"]
  blank := ⟨"", "", none⟩
  put name value :=
    match name with
    | "name" => (Json.readText value).map fun name entry => { entry with name }
    | "pattern" => (Json.readText value).map fun pattern entry => { entry with pattern }
    | "cached" =>
      (Json.readOption Finding.schema.read value).map fun cached entry => { entry with cached }
    | _ => .error .unreadable

/-- A pattern entry as a JSON value. -/
def PatternEntry.toJson (entry : PatternEntry) : Json :=
  .object ([Json.field "name" (.text entry.name), Json.field "pattern" (.text entry.pattern)]
    ++ Json.field? "cached" (entry.cached.map Finding.toJson))

/-- How an offset entry is read from JSON. -/
def OffsetEntry.schema : Schema OffsetEntry where
  names := ["name", "operation"]
  required := ["name"]
  blank := ⟨"", none⟩
  put name value :=
    match name with
    | "name" => (Json.readText value).map fun name entry => { entry with name }
    | "operation" =>
      (Json.readOption Formula.read value).map fun operation entry => { entry with operation }
    | _ => .error .unreadable

/-- An offset entry as a JSON value. -/
def OffsetEntry.toJson (entry : OffsetEntry) : Json :=
  .object (Json.field "name" (.text entry.name)
    :: Json.field? "operation" (entry.operation.map Formula.toJson))

namespace Document

/-- How a document is read from JSON. -/
def schema : Schema Document where
  names := ["patterns", "offsets"]
  required := []
  blank := {}
  put name value :=
    match name with
    | "patterns" =>
      (Json.readList PatternEntry.schema.read value).map
        fun patterns document => { document with patterns }
    | "offsets" =>
      (Json.readList OffsetEntry.schema.read value).map
        fun offsets document => { document with offsets }
    | _ => .error .unreadable

/-- A document as a JSON value. -/
def toJson (document : Document) : Json :=
  .object [Json.field "patterns" (.array (document.patterns.map PatternEntry.toJson)),
    Json.field "offsets" (.array (document.offsets.map OffsetEntry.toJson))]

/-- Whether a byte is an ASCII blank. -/
def isBlankByte (byte : UInt8) : Bool :=
  byte = 0x20 || byte = 0x09 || byte = 0x0A || byte = 0x0C || byte = 0x0D

/-- The characters up to the first bytes that are not UTF-8, which count as a character that no
JSON text may hold. -/
def charsFrom (bytes : ByteArray) (start : Nat) : List Char :=
  if _h : start < bytes.size then
    match bytes.utf8DecodeChar? start with
    | some c => c :: charsFrom bytes (start + c.utf8Size)
    | none => ['\x00']
  else []
termination_by bytes.size - start
decreasing_by
  have := c.utf8Size_pos
  omega

/-- The characters of a stored text. -/
def chars (bytes : ByteArray) : List Char :=
  match String.fromUTF8? bytes with
  | some s => s.toList
  | none => charsFrom bytes 0

/-- Reads a stored document and checks it in a format. -/
def ofBytes (format : SignatureFormat) (bytes : ByteArray) : Except Error Document :=
  if bytes.data.all isBlankByte then .ok {}
  else
    Except.mapError .invalidDocument do
      let document ← Json.readAll Json.maxDepth schema.read (chars bytes)
      document.validate format
      return document

/-- The stored form of a document. -/
def toBytes (document : Document) : ByteArray :=
  document.toJson.pretty.toUTF8

end Document

end Landmark
