import Landmark.Store.Basic
import Landmark.Store.Path

/-!
# Stores in files

A `FileStore` keeps its document in one file of a tree of directories. A missing file reads as an
empty document that was last written at the start of 1970. Writing needs the directory of the file
to exist.
-/

namespace Landmark

/-- What a name in a tree of directories stands for. -/
inductive Node
  | file (bytes : ByteArray) (modified : Instant)
  | directory
deriving Inhabited

/-- The names on the way from the top of a tree to a node. -/
abbrev Location := List String

/-- A tree of directories, as the nodes at their locations; the top itself is always there. -/
structure FileTree where
  nodes : List (Location × Node) := []
deriving Inhabited

namespace FileTree

/-- The node at a location. -/
def node? (tree : FileTree) (location : Location) : Option Node :=
  if location = [] then some .directory else tree.nodes.lookup location

/-- Goes from a directory to the directory that a step leads to; at the top, `..` stays there. -/
def enter (tree : FileTree) (location : Location) (step : String) : Except StorageFault Location :=
  if Path.isStill step then .ok location
  else if step = ".." then .ok location.dropLast
  else if Path.nameLimit < step.utf8ByteSize then .error (.system .tooLong)
  else
    match tree.node? (location ++ [step]) with
    | some .directory => .ok (location ++ [step])
    | some (.file _ _) => .error (.system .notDirectory)
    | none => .error (.system .absent)

/-- The location that a path names, in a directory that is there; none if the path names nothing and
leads to a directory by its steps alone. -/
def locate (tree : FileTree) (path : Path) : Except StorageFault (Option Location) := do
  if path.hasZero then throw .zeroInName
  if Path.textLimit < path.size then throw (.system .tooLong)
  match path.name? with
  | none =>
    let _ ← path.steps.foldlM tree.enter []
    return none
  | some name =>
    let above ← path.steps.dropLast.foldlM tree.enter []
    if Path.nameLimit < name.utf8ByteSize then throw (.system .tooLong)
    return some (above ++ [name])

/-- The node at a path, or why there is none. -/
def find (tree : FileTree) (path : Path) : Except StorageFault Node := do
  match ← tree.locate path with
  | none => return .directory
  | some location =>
    match tree.node? location with
    | none => throw (.system .absent)
    | some .directory => return .directory
    | some (.file bytes modified) =>
      if path.endsInSlash then throw (.system .notDirectory)
      return .file bytes modified

/-- The tree with another node at a location. -/
def put (tree : FileTree) (location : Location) (node : Node) : FileTree :=
  ⟨(location, node) :: tree.nodes.filter fun entry => entry.1 ≠ location⟩

/-- Writes a file, which may be there already. -/
def write (tree : FileTree) (path : Path) (bytes : ByteArray) (now : Instant) :
    Except StorageFault FileTree := do
  match ← tree.locate path with
  | none => throw (.system .isDirectory)
  | some location =>
    if path.endsInSlash then throw (.system .isDirectory)
    match tree.node? location with
    | some .directory => throw (.system .isDirectory)
    | _ => return tree.put location (.file bytes now)

/-- Makes a directory where there is nothing yet. -/
def makeDirectory (tree : FileTree) (path : Path) : Option FileTree :=
  match tree.locate path with
  | .ok (some location) =>
    if (tree.node? location).isNone then some (tree.put location .directory) else none
  | _ => none

/-- Removes a file. -/
def removeFile (tree : FileTree) (path : Path) : Option FileTree :=
  match tree.locate path with
  | .ok (some location) =>
    match tree.node? location, path.endsInSlash with
    | some (.file _ _), false => some ⟨tree.nodes.filter fun entry => entry.1 ≠ location⟩
    | _, _ => none
  | _ => none

end FileTree

/-- A document kept in a file. -/
structure FileStore where
  path : Path
  tree : FileTree := {}
  /-- What the clock shows. -/
  now : Instant := Instant.epoch

namespace FileStore

/-- When the file was last written. -/
def lastModified (store : FileStore) : Except Error Instant :=
  match store.tree.find store.path with
  | .ok (.file _ modified) => .ok modified
  | .ok .directory => .ok store.now
  | .error fault => if fault.isAbsent then .ok Instant.epoch else .error (.storage fault)

/-- The bytes of the file. -/
def load (store : FileStore) : Except Error ByteArray :=
  match store.tree.find store.path with
  | .ok (.file bytes _) => .ok bytes
  | .ok .directory => .error (.storage (.system .isDirectory))
  | .error fault => if fault.isAbsent then .ok .empty else .error (.storage fault)

/-- Writes the file. -/
def save (store : FileStore) (bytes : ByteArray) : Except Error FileStore :=
  match store.tree.write store.path bytes store.now with
  | .ok tree => .ok { store with tree }
  | .error fault => .error (.storage fault)

instance : Store FileStore where
  lastModified := fun store =>
    match store.lastModified with
    | .ok instant => .ok instant store
    | .error e => .error e store
  load := fun store =>
    match store.load with
    | .ok bytes => .ok bytes store
    | .error e => .error e store
  save bytes := fun store =>
    match store.save bytes with
    | .ok store' => .ok () store'
    | .error e => .error e store

end FileStore

end Landmark
