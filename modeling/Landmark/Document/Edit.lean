import Landmark.Document.Basic

/-!
# Editing documents

Each edit either fails and leaves the document as it was, or changes one entry and marks the
document as changed. Entries are added at the end, replaced and updated by their index, and removed
by their trimmed name. A name that another entry of the kind has is refused before an index is
looked at.
-/

namespace Landmark

/-- A change of a document that may fail. -/
abbrev Edit (α : Type) := EStateM Error Document α

namespace Edit

/-- Fails with a fault of the document. -/
def refuse {α : Type} (fault : DocumentFault) : Edit α :=
  throw (.invalidDocument fault)

/-- Changes the document and marks it. -/
def change (f : Document → Document) : Edit Unit :=
  modify fun document => { f document with dirty := true }

/-- Adds a pattern and gives its index. -/
def addPattern (entry : PatternEntry) : Edit Nat := do
  let document ← get
  if (document.patternIndex (Text.trim entry.name)).isSome then
    refuse (.duplicateName .pattern entry.name)
  else
    change fun document => { document with patterns := document.patterns ++ [entry] }
    return document.patterns.length

/-- Replaces a pattern and gives the one that was there. -/
def replacePattern (index : Nat) (entry : PatternEntry) : Edit PatternEntry := do
  let document ← get
  if (document.patternIndex (Text.trim entry.name)).any (· != index) then
    refuse (.duplicateName .pattern entry.name)
  else
    match document.patterns[index]? with
    | none => refuse (.indexOutside .pattern index)
    | some old =>
      change fun document => { document with patterns := document.patterns.set index entry }
      return old

/-- Removes a pattern, if it is there, and gives it. -/
def removePattern (name : String) : Edit (Option PatternEntry) := do
  let document ← get
  match document.patternIndex name with
  | none => return none
  | some index =>
    change fun document => { document with patterns := document.patterns.eraseIdx index }
    return document.patterns[index]?

/-- Sets or clears the finding of a pattern. -/
def setCached (index : Nat) (cached : Option Finding) : Edit Unit := do
  let document ← get
  match document.patterns[index]? with
  | none => refuse (.indexOutside .pattern index)
  | some entry =>
    change fun document =>
      { document with patterns := document.patterns.set index { entry with cached } }

/-- Adds an offset and gives its index. -/
def addOffset (entry : OffsetEntry) : Edit Nat := do
  let document ← get
  if (document.offsetIndex (Text.trim entry.name)).isSome then
    refuse (.duplicateName .offset entry.name)
  else
    change fun document => { document with offsets := document.offsets ++ [entry] }
    return document.offsets.length

/-- Replaces an offset and gives the one that was there. -/
def replaceOffset (index : Nat) (entry : OffsetEntry) : Edit OffsetEntry := do
  let document ← get
  if (document.offsetIndex (Text.trim entry.name)).any (· != index) then
    refuse (.duplicateName .offset entry.name)
  else
    match document.offsets[index]? with
    | none => refuse (.indexOutside .offset index)
    | some old =>
      change fun document => { document with offsets := document.offsets.set index entry }
      return old

/-- Removes an offset, if it is there, and gives it. -/
def removeOffset (name : String) : Edit (Option OffsetEntry) := do
  let document ← get
  match document.offsetIndex name with
  | none => return none
  | some index =>
    change fun document => { document with offsets := document.offsets.eraseIdx index }
    return document.offsets[index]?

/-- Gives an offset another formula, or none. -/
def setOperation (index : Nat) (operation : Option Formula) : Edit Unit := do
  let document ← get
  match document.offsets[index]? with
  | none => refuse (.indexOutside .offset index)
  | some entry =>
    change fun document =>
      { document with offsets := document.offsets.set index { entry with operation } }

/-- Gives the formula of an offset a binary root, if its root is unary. -/
def convertToBinary (index : Nat) : Edit Unit := do
  let document ← get
  match document.offsets[index]? with
  | none => refuse (.indexOutside .offset index)
  | some entry =>
    change fun document =>
      { document with
        offsets := document.offsets.set index
          { entry with operation := entry.operation.map Formula.toBinary } }

end Edit

end Landmark
