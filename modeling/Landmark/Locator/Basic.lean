import Landmark.Document.Stored
import Landmark.Formula.Evaluation
import Landmark.Locator.Addresses
import Landmark.Locator.Lookup
import Landmark.Store.Basic

/-!
# Locators

A locator answers where a named offset is in the target right now. A name that was resolved once
keeps its address until the locator is reset. Any other name is resolved by the document, which is
loaded anew when the store has a later one; findings that come up on the way are saved at once,
after which the document is loaded again. Edits are saved the same way, and an edit that fails
leaves the document as it was.
-/

namespace Landmark

/-- A document in use: its store, what was loaded from it and when, and the names resolved since. -/
structure Locator (σ : Type) where
  store : σ
  document : Document
  /-- The time of the stored document, taken right before it was loaded. -/
  loadedAt : Instant
  addresses : Addresses := {}
  /-- The locator's own registry, as the evaluations so far have left it. -/
  registry : Option Registry := none

namespace Locator

variable {σ α : Type} [Store σ]

/-- Loads the document and the time it is of. -/
def load (format : SignatureFormat) : Task σ (Document × Instant) := do
  let loadedAt ← Store.call .lastModified Store.lastModified
  let bytes ← Store.call .load Store.load
  let document ← Task.ofExcept (Document.ofBytes format bytes)
  return (document, loadedAt)

/-- A new locator over a store. -/
def openStore (settings : Settings) : Task σ (Locator σ) := do
  let (document, loadedAt) ← load settings.format
  return { store := ← Task.getState, document, loadedAt, registry := settings.registry }

/-- Runs a task on the store of a locator. -/
def onStore (task : Task σ α) : Task (Locator σ) α :=
  Task.within Locator.store (fun store locator => { locator with store }) task

/-- Loads the document anew; what was not saved is lost. -/
def reload (settings : Settings) : Task (Locator σ) Unit := do
  let (document, loadedAt) ← onStore (load settings.format)
  Task.setState { ← Task.getState with document, loadedAt }

/-- Saves the document and loads it again. -/
def saveAndReload (settings : Settings) : Task (Locator σ) Unit := do
  let locator ← Task.getState
  onStore (Store.call .save (Store.save locator.document.toBytes))
  let locator ← Task.getState
  Task.setState { locator with document := locator.document.markClean }
  reload settings

/-- Loads the document anew if the store has a later one. -/
def refresh (settings : Settings) : Task (Locator σ) Unit := do
  let modified ← onStore (Store.call .lastModified Store.lastModified)
  if (← Task.getState).loadedAt < modified then reload settings

/-- What evaluations of a locator work on. -/
def scene (locator : Locator σ) : Scene Document :=
  ⟨locator.registry.getD Registry.standard, locator.document⟩

/-- Takes over what an evaluation has left. The standard registry is nobody's to change. -/
def putScene (scene : Scene Document) (locator : Locator σ) : Locator σ :=
  { locator with
    document := scene.patterns
    registry := locator.registry.map fun _ => scene.registry }

/-- Evaluates a formula against the document. -/
def evaluate (target : Target) (settings : Settings) (formula : Formula) :
    Task (Locator σ) UInt64 :=
  Task.within scene putScene
    (formula.evaluateAddress (Document.locate target settings) (some target.memory))

/-- Keeps the address of a name, unless another one was kept before; that one is given then. -/
def remember (name : String) (address : UInt64) : Task (Locator σ) UInt64 := do
  let locator ← Task.getState
  let (address, addresses) := locator.addresses.insert name address
  Task.setState { locator with addresses }
  return address

/-- Resolves a name by the document in use. What was found on the way is saved. -/
def resolve (target : Target) (settings : Settings) (name : String) : Task (Locator σ) UInt64 := do
  match (← Task.getState).document.offset? name with
  | none => throw (.unresolvedOffset name)
  | some entry =>
    let address ← evaluate target settings entry.formula
    if (← Task.getState).document.dirty then saveAndReload settings
    remember name address

/-- The address of a named offset. -/
def getAddress (target : Target) (settings : Settings) (name : String) :
    Task (Locator σ) UInt64 := do
  match (← Task.getState).addresses.get? name with
  | some address => return address
  | none =>
    refresh settings
    resolve target settings name

/-- Whether a name is resolved or defined. -/
def canResolve (locator : Locator σ) (name : String) : Bool :=
  locator.addresses.contains name || (locator.document.offset? name).isSome

/-- Forgets all resolved names. -/
def reset (locator : Locator σ) : Locator σ :=
  { locator with addresses := {} }

/-- Makes an edit of the document part of a task on its locator. -/
def onDocument (edit : Edit α) : Task (Locator σ) α :=
  Task.within Locator.document (fun document locator => { locator with document })
    (Document.editing edit)

/-- Carries an edit out, checks the changed document, saves it and loads it again. -/
def tryEdit (settings : Settings) (edit : Edit α) : Task (Locator σ) α := do
  let value ← onDocument edit
  let document := (← Task.getState).document
  if document.dirty then
    Task.ofExcept ((document.validate settings.format).mapError .invalidDocument)
    saveAndReload settings
  return value

/-- Edits the document; when that fails at any stage the document is as it was before. -/
def edit (settings : Settings) (edit : Edit α) : Task (Locator σ) α := do
  let snapshot := (← Task.getState).document
  match ← Task.attempt (tryEdit settings edit) with
  | .ok value => return value
  | .error error =>
    Task.setState { ← Task.getState with document := snapshot }
    throw error

end Locator

end Landmark
