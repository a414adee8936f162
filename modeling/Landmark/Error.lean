import Landmark.Memory.Span
import Landmark.Text.Numeral

/-!
# Errors

Each failure is kept as its cause, and `Error.message` puts it into words. A caller that brings
its own operator, reader or store words its failures itself: that is what the `stated` causes are
for.
-/

namespace Landmark

/-- What is wrong with a signature, its text or its text format. -/
inductive SignatureFault
  | emptySeparator
  | digitWildcard (wildcard : String)
  | radixOutside (radix : Nat)
  | badToken (token : String) (fault : NumeralFault)
  | maskLength (mask bytes : Nat)
  | nothingSignificant
  | stated (text : String)
deriving DecidableEq, Repr, Inhabited

/-- The wording of a fault in a signature. -/
def SignatureFault.message : SignatureFault → String
  | .emptySeparator => "separator must not be empty"
  | .digitWildcard wildcard =>
    "wildcard '" ++ wildcard ++ "' must contain at least one non-digit character"
  | .radixOutside radix => "radix " ++ Numeral.write 10 radix ++ " is outside 2..=36"
  | .badToken token fault => "Invalid pattern token '" ++ token ++ "': " ++ fault.message
  | .maskLength mask bytes =>
    "mask length " ++ Numeral.write 10 mask ++ " differs from pattern length "
      ++ Numeral.write 10 bytes
  | .nothingSignificant => "mask has no significant byte to trim around"
  | .stated text => text

/-- What is wrong with the text of an operand. -/
inductive OperandFault
  | badTarget (text : String) (fault : NumeralFault)
  | badOffset (text : String) (fault : NumeralFault)
  | secondSign (text : String)
  | unknownWidth (text : String)
  | stated (text : String)
deriving DecidableEq, Repr, Inhabited

/-- The wording of a fault in an operand. -/
def OperandFault.message : OperandFault → String
  | .badTarget text fault => "invalid target address '" ++ text ++ "': " ++ fault.message
  | .badOffset text fault => "invalid offset '" ++ text ++ "': " ++ fault.message
  | .secondSign text => "invalid offset '" ++ text ++ "': unexpected sign"
  | .unknownWidth text => "unknown load width '" ++ text ++ "'"
  | .stated text => text

/-- Why memory could not be read. -/
inductive ReadFault
  | short (wanted got : Nat)
  | pointerWidth (width : Nat)
  | notAddressable (span : Span)
  | outside (size : Nat) (span : Span)
  | stated (text : String)
deriving DecidableEq, Repr, Inhabited

/-- The wording of a failed read. -/
def ReadFault.message : ReadFault → String
  | .short wanted got =>
    "short read: wanted " ++ Numeral.write 10 wanted ++ " bytes, got " ++ Numeral.write 10 got
  | .pointerWidth width => "unsupported pointer width " ++ Numeral.write 10 width
  | .notAddressable span => span.text ++ " is not addressable in-process"
  | .outside size span => Numeral.write 10 size ++ " bytes outside " ++ span.text
  | .stated text => text

/-- The two kinds of named entries in a document. -/
inductive EntryKind
  | pattern
  | offset
deriving DecidableEq, Repr, Inhabited

/-- The word for a kind of entry. -/
def EntryKind.word : EntryKind → String
  | .pattern => "pattern"
  | .offset => "offset"

/-- What is wrong with a document or with an edit of one. -/
inductive DocumentFault
  | unreadable
  | badCachedValue (text : String)
  | emptyName (kind : EntryKind)
  | duplicateName (kind : EntryKind) (name : String)
  | badPattern (name : String) (fault : SignatureFault)
  | emptyReference
  | emptyOperator
  | badOffset (name : String) (fault : DocumentFault)
  | indexOutside (kind : EntryKind) (index : Nat)
  | stated (text : String)
deriving DecidableEq, Repr, Inhabited

/-- The wording of a fault in a document; a fault inside an entry is told with the entry's name. -/
def DocumentFault.message : DocumentFault → String
  | .unreadable => "the text is not a document"
  | .badCachedValue text => "invalid hex offset '" ++ text ++ "'"
  | .emptyName kind => kind.word ++ " with empty name"
  | .duplicateName kind name => "duplicate " ++ kind.word ++ " name '" ++ name ++ "'"
  | .badPattern name fault => "pattern '" ++ name ++ "': Invalid pattern: " ++ fault.message
  | .emptyReference => "pattern reference with empty name"
  | .emptyOperator => "operator node with empty operator identifier"
  | .badOffset name fault => "offset '" ++ name ++ "': Invalid offset document: " ++ fault.message
  | .indexOutside kind index =>
    kind.word ++ " index " ++ Numeral.write 10 index ++ " out of range"
  | .stated text => text

/-- What a file system answers when it refuses a call. -/
inductive SystemFault
  | absent
  | notDirectory
  | isDirectory
  | tooLong
deriving DecidableEq, Repr, Inhabited

/-- The wording of a refused call. -/
def SystemFault.message : SystemFault → String
  | .absent => "no such file or directory"
  | .notDirectory => "not a directory"
  | .isDirectory => "is a directory"
  | .tooLong => "file name too long"

/-- Why a store could not do what it was asked for. A name with a zero character in it is refused
before any file system is asked. -/
inductive StorageFault
  | system (fault : SystemFault)
  | zeroInName
  | stated (absent : Bool) (text : String)
deriving DecidableEq, Repr, Inhabited

namespace StorageFault

/-- The wording of a fault in storage. -/
def message : StorageFault → String
  | .system fault => fault.message
  | .zeroInName => "file name contained an unexpected NUL byte"
  | .stated _ text => text

/-- Whether the fault is that what was sought is absent. -/
def isAbsent : StorageFault → Bool
  | .system fault => fault = .absent
  | .zeroInName => false
  | .stated absent _ => absent

end StorageFault

/-- Every way in which locating an address can fail. -/
inductive Error
  | noMatch
  | invalidPattern (fault : SignatureFault)
  | unknownOperator (identifier : String)
  | malformedOperand (fault : OperandFault)
  | unresolvedOffset (name : String)
  | unresolvedPattern (name : String)
  | invalidDocument (fault : DocumentFault)
  | readFailed (address : UInt64) (fault : ReadFault)
  | missingMemory
  | storage (fault : StorageFault)
  | json
deriving DecidableEq, Repr, Inhabited

namespace Error

/-- The wording of a failure. -/
def message : Error → String
  | .noMatch => "Pattern could not be matched"
  | .invalidPattern fault => "Invalid pattern: " ++ fault.message
  | .unknownOperator identifier => "No operator registered for identifier '" ++ identifier ++ "'"
  | .malformedOperand fault => "Malformed operand: " ++ fault.message
  | .unresolvedOffset name => "Offset '" ++ name ++ "' could not be resolved: no definition"
  | .unresolvedPattern name => "There is no pattern definition named '" ++ name ++ "'"
  | .invalidDocument fault => "Invalid offset document: " ++ fault.message
  | .readFailed address fault =>
    "Failed to read memory at address 0x" ++ Numeral.lowerHex address.toNat ++ ": "
      ++ fault.message
  | .missingMemory => "Operation requires a memory reader but none was supplied"
  | .storage fault => "IO error: " ++ fault.message
  | .json => "JSON error: the text does not hold the wanted value"

/-- Whether the failure says that what was sought in storage is absent. -/
def isNotFound : Error → Bool
  | .storage fault => fault.isAbsent
  | _ => false

/-- Whether the failure is a search that found nothing. -/
def isNoMatch : Error → Bool
  | .noMatch => true
  | _ => false

end Error

end Landmark
