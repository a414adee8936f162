import Landmark.Memory.Target
import Landmark.Signature.Matching

/-!
# Searching a target

A search runs a matcher over the bytes of a span again and again, each time from one byte behind the
start of the match before, so that matches may overlap. The addresses come out in ascending order.
A search that is asked for nothing does not touch the memory.
-/

namespace Landmark

/-- The offsets of matches, and how often the matcher was applied to find them. -/
structure Scan where
  offsets : List Nat
  applications : Nat
deriving DecidableEq, Repr, Inhabited

/-- Adds to a scan the next `count` matches in bytes that begin at `offset`; the offsets are kept
newest first. -/
def Scan.extend (find : List UInt8 → Option Nat) (scan : Scan) :
    (count offset : Nat) → List UInt8 → Scan
  | 0, _, _ => scan
  | _ + 1, _, [] => scan
  | count + 1, offset, byte :: bytes =>
    match find (byte :: bytes) with
    | none => { scan with applications := scan.applications + 1 }
    | some o =>
      Scan.extend find ⟨(offset + o) :: scan.offsets, scan.applications + 1⟩ count (offset + o + 1)
        (bytes.drop o)

/-- The first `count` matches in bytes, in order. -/
def Scan.collect (find : List UInt8 → Option Nat) (count : Nat) (bytes : List UInt8) : Scan :=
  let scan := Scan.extend find ⟨[], 0⟩ count 0 bytes
  { scan with offsets := scan.offsets.reverse }

/-- A signature and the matcher that looks for it. -/
structure Search where
  signature : Signature
  matcher : Matcher := Algorithm.standard.apply

namespace Search

variable {σ : Type}

/-- The first `count` matches in bytes. -/
def scan (search : Search) (count : Nat) (bytes : List UInt8) : Scan :=
  Scan.collect (search.matcher search.signature.places) count bytes

/-- The addresses of the first `count` matches in a span. -/
def findMany (search : Search) (target : Target) (span : Span) (count : Nat) :
    Task σ (List UInt64) :=
  if count = 0 then return []
  else do
    let bytes ← (Access.of target).bytes target.memory span
    let scan := search.scan count bytes
    Task.record (.scan scan.applications)
    return scan.offsets.map fun offset => span.first + UInt64.ofNat offset

/-- The address of the first match in a span. -/
def findFirst (search : Search) (target : Target) (span : Span) : Task σ UInt64 := do
  match ← search.findMany target span 1 with
  | address :: _ => return address
  | [] => throw .noMatch

/-- The addresses of the first `count` matches in the target's module. -/
def findManyInModule (search : Search) (target : Target) (count : Nat) : Task σ (List UInt64) :=
  search.findMany target target.image.span count

/-- The address of the first match in the target's module. -/
def findFirstInModule (search : Search) (target : Target) : Task σ UInt64 :=
  search.findFirst target target.image.span

/-- The search as text: the signature only. -/
def text (search : Search) : String :=
  "PatternSearchEngine \x7b pattern: \"" ++ search.signature.text ++ "\", .. \x7d"

end Search

end Landmark
