import Landmark.Signature.Runs
import Landmark.Signature.SkipTable
import Landmark.Text.Pieces

/-!
# Matching

A matcher finds the least offset at which the places of a signature match the bytes of a haystack.
There are three: `naive` compares every window from the left, `splitNaive` compares whole literal
runs and never looks at the gaps between them, and `horspool` looks at the last byte of a window
first and moves on by the skip table. They answer alike; none finds the empty signature anywhere.

A window is a part of the haystack as long as the signature. The matchers keep the bytes from the
start of the window and the bytes from its end, so that no step measures the rest of the haystack.
-/

namespace Landmark

/-- Finds the first offset at which places match a haystack. -/
abbrev Matcher := List Place → List UInt8 → Option Nat

namespace Matching

/-- Whether the places match the bytes at the front of a haystack. -/
def fits : List Place → List UInt8 → Bool
  | [], _ => true
  | _ :: _, [] => false
  | place :: places, byte :: bytes => place.admits byte && fits places bytes

/-- The part of a haystack that begins with the last byte of its first window. It has one byte for
every window, and none when the haystack is too short for a window. -/
def windowEnds (places : List Place) (haystack : List UInt8) : List UInt8 :=
  haystack.drop (places.length - 1)

/-- The offset of the first window that passes a test, counted on from `offset`. The windows begin
with the bytes at `offset` and end with the last bytes given beside them. -/
def firstWindow (test : List UInt8 → Bool) : (offset : Nat) → (bytes ends : List UInt8) → Option Nat
  | _, _, [] => none
  | offset, bytes, _ :: ends =>
    if test bytes then some offset else firstWindow test (offset + 1) bytes.tail ends

/-- Compares every window place by place. -/
def naive : Matcher := fun places haystack =>
  if places = [] then none
  else firstWindow (fits places) 0 haystack (windowEnds places haystack)

/-- Whether every literal run of the bytes is found at the front of a haystack. -/
def runsFit (runs : List LiteralRun) (bytes haystack : List UInt8) : Bool :=
  runs.all fun run => run.slice haystack == run.slice bytes

/-- Compares the literal runs of every window. -/
def splitNaive : Matcher := fun places haystack =>
  if places = [] then none
  else
    let runs := LiteralRun.split (places.map Place.significant)
    firstWindow (runsFit runs (places.map Place.byte)) 0 haystack (windowEnds places haystack)

/-- Slides a window over a haystack that starts at `offset`. The window is compared only if its last
byte fits; after a mismatch that byte says how far to move on. -/
def slide (table : SkipTable) (places : List Place) (final : Place) (offset : Nat)
    (bytes : List UInt8) : (ends : List UInt8) → Option Nat
  | [] => none
  | last :: ends =>
    if final.admits last && fits places bytes then some offset
    else
      let shift := table.shift last
      slide table places final (offset + shift) (bytes.drop shift) ((last :: ends).drop shift)
termination_by ends => ends.length
decreasing_by
  have := table.shift_pos last
  simp only [List.length_drop, List.length_cons]
  omega

/-- Looks at the last byte of each window first and moves on by the skip table. -/
def horspool : Matcher := fun places haystack =>
  match places.getLast? with
  | none => none
  | some final =>
    slide (SkipTable.build places) places final 0 haystack (windowEnds places haystack)

end Matching

/-- The matchers that come with the library. -/
inductive Algorithm
  | naive
  | splitNaive
  | boyerMooreHorspool
deriving DecidableEq, Repr, Inhabited

namespace Algorithm

/-- The matcher that is used when none is named. -/
def standard : Algorithm :=
  .boyerMooreHorspool

/-- All matchers. -/
def all : List Algorithm :=
  [.naive, .splitNaive, .boyerMooreHorspool]

/-- The matcher itself. -/
def apply : Algorithm → Matcher
  | .naive => Matching.naive
  | .splitNaive => Matching.splitNaive
  | .boyerMooreHorspool => Matching.horspool

/-- The short name. -/
def name : Algorithm → String
  | .naive => "naive"
  | .splitNaive => "split-naive"
  | .boyerMooreHorspool => "bmh"

/-- The name used in stored settings. -/
def variantName : Algorithm → String
  | .naive => "Naive"
  | .splitNaive => "SplitNaive"
  | .boyerMooreHorspool => "BoyerMooreHorspool"

/-- The names that can be given in configuration text. -/
def spellings : List (String × Algorithm) :=
  [("naive", .naive), ("split-naive", .splitNaive), ("bmh", .boyerMooreHorspool),
    ("boyer-moore-horspool", .boyerMooreHorspool)]

/-- Reads a name, taking ASCII letters without case. -/
def ofName? (s : String) : Option Algorithm :=
  (spellings.find? fun spelling => Text.sameIgnoringCase spelling.1 s).map Prod.snd

end Algorithm

end Landmark
