import Landmark.Document.Edit
import Landmark.Locator.Settings

/-!
# Looking a pattern up in a document

The address of a pattern comes from its finding if that is of the module's build. Otherwise the
module is searched for the pattern's signature, and what is found becomes the pattern's finding.
-/

namespace Landmark

namespace Document

/-- Makes an edit part of a task on a document. -/
def editing {α : Type} (edit : Edit α) : Task Document α := fun trail =>
  match edit trail.state with
  | .ok a state => .ok a { trail with state }
  | .error e state => .error e { trail with state }

/-- Searches the module for a pattern and keeps what is found. -/
def searchFor (target : Target) (settings : Settings) (name : String) (index : Nat)
    (entry : PatternEntry) : Task Document UInt64 := do
  let signature ← Task.ofExcept ((entry.signature settings.format).mapError .invalidPattern)
  Task.record (.sought name)
  let address ← (settings.search signature).findFirstInModule target
  Task.record (.located name address)
  editing (Edit.setCached index (some (Finding.capture address target.image)))
  return address

/-- The address of a named pattern. -/
def locate (target : Target) (settings : Settings) (name : String) : Task Document UInt64 := do
  let document ← Task.getState
  match document.patternIndex name with
  | none => throw (.unresolvedPattern name)
  | some index =>
    match document.patterns[index]? with
    | none => throw (.unresolvedPattern name)
    | some entry =>
      match entry.cached.bind fun finding => finding.address? target.image with
      | some address => return address
      | none => searchFor target settings name index entry

end Document

end Landmark
