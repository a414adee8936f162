import Landmark.Memory.Reader
import Landmark.Text.Blank
import Landmark.Text.Pieces

/-!
# The text of operands

Formulas exchange addresses as upper-case hexadecimal text. A target address may carry `0x` in
front; an offset may carry a minus sign before that, and eight digits without a sign are read as a
32-bit two's complement number, so `FFFFFFF0` is `-10`. Text is read trimmed, and empty text is
zero.
-/

namespace Landmark

namespace Operand

/-- The text behind a leading `0x` or `0X`, or all of it when there is none. -/
def dropRadixMark : List Char → List Char
  | '0' :: 'x' :: cs => cs
  | '0' :: 'X' :: cs => cs
  | cs => cs

/-- Reads the address an operator works on. -/
def readTarget (s : String) : Except OperandFault UInt64 :=
  let text := Text.trim s
  if text = "" then .ok 0
  else
    match Numeral.readChars 16 (UInt64.size - 1) (dropRadixMark text.toList) with
    | .ok value => .ok (UInt64.ofNat value)
    | .error fault => .error (.badTarget text fault)

/-- Whether a numeral starts with a sign. -/
def hasSign : List Char → Bool
  | '+' :: _ => true
  | '-' :: _ => true
  | _ => false

/-- Reads the magnitude of an offset that is not negative: eight digits are a 32-bit two's
complement number, any other digits a 63-bit magnitude. -/
def readPlain (digits : List Char) : Except NumeralFault Int :=
  if digits.length = 8 then
    (Numeral.readChars 16 (UInt32.size - 1) digits).map fun value => (value : Int).bmod UInt32.size
  else (Numeral.readChars 16 (UInt64.size / 2 - 1) digits).map Int.ofNat

/-- Reads a signed offset. -/
def readOffset (s : String) : Except OperandFault Int64 :=
  let text := Text.trim s
  if text = "" then .ok 0
  else
    let negative := text.toList.head? = some '-'
    let digits := dropRadixMark (if negative then text.toList.tail else text.toList)
    if hasSign digits then .error (.secondSign text)
    else
      let value :=
        if negative then
          (Numeral.readChars 16 (UInt64.size / 2 - 1) digits).map fun value => -(value : Int)
        else readPlain digits
      match value with
      | .ok value => .ok (Int64.ofInt value)
      | .error fault => .error (.badOffset text fault)

/-- Writes an address the way formulas exchange addresses. -/
def writeAddress (address : UInt64) : String :=
  Numeral.hex address.toNat

end Operand

/-- How many bytes a load takes. -/
inductive LoadWidth
  | byte
  | word
  | dword
  | pointer
deriving DecidableEq, Repr, Inhabited

namespace LoadWidth

/-- The width of a load that names none. -/
def standard : LoadWidth :=
  .dword

/-- All widths. -/
def all : List LoadWidth :=
  [.byte, .word, .dword, .pointer]

/-- The name of a width. -/
def name : LoadWidth → String
  | .byte => "Byte"
  | .word => "Word"
  | .dword => "Dword"
  | .pointer => "Pointer"

/-- The number of bytes to read at an address, where a pointer is as wide as the target's. -/
def size (pointerWidth : Nat) (address : UInt64) : LoadWidth → Except Error Nat
  | .byte => .ok 1
  | .word => .ok 2
  | .dword => .ok 4
  | .pointer => Memory.pointerSize pointerWidth address

/-- Reads a width, taking ASCII letters without case; empty text is the standard width. -/
def read (s : String) : Except OperandFault LoadWidth :=
  let text := Text.trim s
  if text = "" then .ok standard
  else
    match all.find? fun width => Text.sameIgnoringCase width.name text with
    | some width => .ok width
    | none => .error (.unknownWidth text)

end LoadWidth

end Landmark
