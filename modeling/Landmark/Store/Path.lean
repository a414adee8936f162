import Landmark.Text.Pieces

/-!
# Paths in a tree of directories

A path is written with slashes between its pieces. An empty piece and `.` stay where they are, `..`
goes up, and every other piece is a name. A path that ends in a slash asks for a directory.
-/

namespace Landmark

/-- A way through a tree of directories, as the pieces of its text between slashes. -/
structure Path where
  pieces : List String
deriving DecidableEq, Repr, Inhabited

namespace Path

/-- The most bytes that a name may have. -/
def nameLimit : Nat := 255

/-- The most bytes that the text of a path may have. -/
def textLimit : Nat := 4095

/-- Reads a path. -/
def ofText (text : String) : Path :=
  ⟨(Text.splitOn ['/'] text.toList).map String.ofList⟩

/-- Whether a piece stays where it is. -/
def isStill (piece : String) : Bool := piece = "" || piece = "."

/-- The path in writing, without the pieces at both ends that stay where they are. -/
def text (path : Path) : String :=
  "/".intercalate ((path.pieces.dropWhile isStill).reverse.dropWhile isStill).reverse

/-- The bytes of the text that a path was read from. -/
def size (path : Path) : Nat :=
  path.pieces.foldl (fun size piece => size + piece.utf8ByteSize) (path.pieces.length - 1)

/-- Whether there is a zero character in a path; such a path names nothing. -/
def hasZero (path : Path) : Bool := path.pieces.any fun piece => piece.toList.contains '\x00'

/-- The pieces that are not empty. -/
def steps (path : Path) : List String := path.pieces.filter (· ≠ "")

/-- The name in which a path ends, whether or not a slash follows; none if its last step is `.` or
`..`, or if it has no step. -/
def name? (path : Path) : Option String :=
  path.steps.getLast?.filter fun step => step ≠ "." && step ≠ ".."

/-- Whether a path ends in a slash. -/
def endsInSlash (path : Path) : Bool := path.pieces.getLast? = some ""

end Path

end Landmark
