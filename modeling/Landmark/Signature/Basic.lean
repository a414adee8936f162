import Landmark.Signature.Format
import Landmark.Text.Blank

/-!
# Byte signatures

A signature is a list of places. A significant place matches its own byte only; any other place is
a wildcard, which matches every byte and whose own byte is a placeholder. Reading a text gives
wildcards the placeholder zero and cuts the signature to run from its first to its last
significant place.
-/

namespace Landmark

/-- One position of a signature. -/
structure Place where
  byte : UInt8
  significant : Bool
deriving DecidableEq, Repr, Inhabited

namespace Place

/-- The place that matches one byte only. -/
def exactly (byte : UInt8) : Place :=
  ⟨byte, true⟩

/-- The place that matches every byte. -/
def wildcard : Place :=
  ⟨0, false⟩

/-- Whether the place matches a byte. -/
def admits (place : Place) (byte : UInt8) : Bool :=
  !place.significant || place.byte == byte

end Place

/-- A sequence of bytes to look for, some of which may be anything. -/
structure Signature where
  places : List Place
deriving DecidableEq, Repr, Inhabited

namespace Signature

/-- The number of positions. -/
def length (s : Signature) : Nat :=
  s.places.length

/-- Whether there is no position at all. -/
def isEmpty (s : Signature) : Bool :=
  s.places.isEmpty

/-- The bytes of all positions, placeholders included. -/
def bytes (s : Signature) : List UInt8 :=
  s.places.map Place.byte

/-- Which positions are significant. -/
def mask (s : Signature) : List Bool :=
  s.places.map Place.significant

/-- The number of positions that match every byte. -/
def wildcards (s : Signature) : Nat :=
  s.places.countP fun place => !place.significant

/-- The signature that matches exactly the given bytes. -/
def exact (bytes : List UInt8) : Signature :=
  ⟨bytes.map Place.exactly⟩

/-- The places from the first to the last significant one. -/
def trimPlaces (places : List Place) : List Place :=
  ((places.dropWhile fun place => !place.significant).reverse.dropWhile
    fun place => !place.significant).reverse

/-- The signature cut to its significant part; one with wildcards only has no such part. -/
def trimmed (s : Signature) : Except SignatureFault Signature :=
  if s.places = [] then .ok s
  else if s.places.any Place.significant then .ok ⟨trimPlaces s.places⟩
  else .error .nothingSignificant

/-- Builds a signature from bytes and a mask of the same length, cut to its significant part if
asked. Without a mask every byte is significant. -/
def ofMasked (bytes : List UInt8) (mask : Option (List Bool)) (trim : Bool) :
    Except SignatureFault Signature :=
  match mask with
  | none => .ok (exact bytes)
  | some mask =>
    if mask.length ≠ bytes.length then .error (.maskLength mask.length bytes.length)
    else if trim then trimmed ⟨List.zipWith Place.mk bytes mask⟩
    else .ok ⟨List.zipWith Place.mk bytes mask⟩

/-- Reads one token of a signature's text. -/
def readToken (format : SignatureFormat) (token : String) : Except SignatureFault Place :=
  if Text.occursIn format.wildcard.toList token.toList then .ok Place.wildcard
  else
    match Numeral.read format.radix 255 (Text.trim token) with
    | .ok value => .ok (Place.exactly (UInt8.ofNat value))
    | .error fault => .error (.badToken token fault)

/-- Reads a signature's text in a format. -/
def parse (format : SignatureFormat) (text : String) : Except SignatureFault Signature := do
  format.validate
  let places ← (Text.pieces format.separator text).mapM (readToken format)
  trimmed ⟨places⟩

/-- The token of one place. -/
def token (format : SignatureFormat) (place : Place) : String :=
  if place.significant then format.byteToken place.byte else format.wildcard

/-- Writes a signature's text in a format. -/
def format (format : SignatureFormat) (s : Signature) : String :=
  format.separator.intercalate (s.places.map (token format))

/-- The text of a signature in the default format. -/
def text (s : Signature) : String :=
  s.format {}

end Signature

end Landmark
