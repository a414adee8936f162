import Landmark.Document.Finding
import Landmark.Formula.Basic
import Landmark.Signature.Basic

/-!
# Documents

A document defines patterns by their texts and offsets by formulas. A pattern may carry the finding
of an earlier search; an offset without a formula stands for the pattern of its own name. Names are
compared trimmed. The document also remembers whether it was changed since it was read or saved.

A document is valid in a format when every entry has a name, no two patterns and no two offsets have
the same one, every pattern text can be read and every formula names its patterns and operators.
-/

namespace Landmark

/-- A named signature and where it was found last. -/
structure PatternEntry where
  name : String
  pattern : String
  cached : Option Finding := none
deriving DecidableEq, Repr, Inhabited

namespace PatternEntry

/-- The entry of a signature, written in the default format. -/
def ofSignature (name : String) (signature : Signature) : PatternEntry :=
  ⟨name, signature.text, none⟩

/-- The signature of an entry. Line feeds in its text count as spaces. -/
def signature (entry : PatternEntry) (format : SignatureFormat) :
    Except SignatureFault Signature :=
  Signature.parse format (Text.joinLines entry.pattern)

end PatternEntry

/-- A named address and how it is computed. -/
structure OffsetEntry where
  name : String
  operation : Option Formula := none
deriving DecidableEq, Repr, Inhabited

/-- The formula of an offset. -/
def OffsetEntry.formula (entry : OffsetEntry) : Formula :=
  entry.operation.getD (.pattern (Text.trim entry.name))

/-- Definitions of patterns and offsets. -/
structure Document where
  patterns : List PatternEntry := []
  offsets : List OffsetEntry := []
  /-- Whether the document was changed since it was read or saved. -/
  dirty : Bool := false
deriving DecidableEq, Repr, Inhabited

namespace Document

/-- Where the pattern of a trimmed name stands. -/
def patternIndex (document : Document) (name : String) : Option Nat :=
  document.patterns.findIdx? fun entry => Text.trim entry.name == name

/-- Where the offset of a trimmed name stands. -/
def offsetIndex (document : Document) (name : String) : Option Nat :=
  document.offsets.findIdx? fun entry => Text.trim entry.name == name

/-- The pattern of a trimmed name. -/
def pattern? (document : Document) (name : String) : Option PatternEntry :=
  document.patterns.find? fun entry => Text.trim entry.name == name

/-- The offset of a trimmed name. -/
def offset? (document : Document) (name : String) : Option OffsetEntry :=
  document.offsets.find? fun entry => Text.trim entry.name == name

/-- The document as one that was not changed. -/
def markClean (document : Document) : Document :=
  { document with dirty := false }

/-- The trimmed name of an entry, if there is one and it is not among those seen before. -/
def requireName (kind : EntryKind) (seen : List String) (name : String) :
    Except DocumentFault String :=
  let name := Text.trim name
  if name = "" then .error (.emptyName kind)
  else if name ∈ seen then .error (.duplicateName kind name)
  else .ok name

/-- Checks pattern entries in order, given the names seen before. -/
def validatePatterns (format : SignatureFormat) :
    (seen : List String) → List PatternEntry → Except DocumentFault Unit
  | _, [] => .ok ()
  | seen, entry :: entries => do
    let name ← requireName .pattern seen entry.name
    match entry.signature format with
    | .ok _ => validatePatterns format (name :: seen) entries
    | .error fault => .error (.badPattern entry.name fault)

/-- Checks offset entries in order, given the names seen before. -/
def validateOffsets : (seen : List String) → List OffsetEntry → Except DocumentFault Unit
  | _, [] => .ok ()
  | seen, entry :: entries => do
    let name ← requireName .offset seen entry.name
    match (entry.operation.map Formula.validate).getD (.ok ()) with
    | .ok _ => validateOffsets (name :: seen) entries
    | .error fault => .error (.badOffset entry.name fault)

/-- Accepts valid documents; otherwise the first fault is reported, patterns before offsets. -/
def validate (document : Document) (format : SignatureFormat) : Except DocumentFault Unit := do
  validatePatterns format [] document.patterns
  validateOffsets [] document.offsets

end Document

end Landmark
