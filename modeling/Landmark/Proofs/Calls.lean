import Mathlib.Tactic.Common
import Landmark.Locator.Basic
import Landmark.Proofs.Agreement
import Landmark.Proofs.Edits
import Landmark.Proofs.StoredDocument
import Landmark.Store.Held

/-!
# Calls of a locator

Over a store whose calls never fail, each call of a locator is worked out here: what it answers and
what it leaves, in terms of the bytes in the store and the document in use. A document that is valid
and has no formula that is too high is loaded again as it was saved (`saveAndReload_eq_ok`), so an
edit ends in one of four ways (`edit_ends`).
-/

namespace Landmark

/-- A store whose calls never fail, by what they answer and what they leave. A save is always later
than all before. -/
class Dependable (σ : Type) [Store σ] where
  bytes : σ → ByteArray
  modified : σ → Instant
  loaded : σ → σ
  saved : ByteArray → σ → σ
  lastModified_eq (store : σ) : Store.lastModified store = .ok (modified store) store
  load_eq (store : σ) : Store.load store = .ok (bytes store) (loaded store)
  save_eq (bytes : ByteArray) (store : σ) : Store.save bytes store = .ok () (saved bytes store)
  bytes_loaded (store : σ) : bytes (loaded store) = bytes store
  modified_loaded (store : σ) : modified (loaded store) = modified store
  bytes_saved (bytes' : ByteArray) (store : σ) : bytes (saved bytes' store) = bytes'
  lt_modified_saved (bytes : ByteArray) (store : σ) :
    modified store < modified (saved bytes store)

theorem Store.call_eq {σ α : Type} (event : StoreCall) (action : EStateM Error σ α) (s : Trail σ) :
    Store.call event action s = match action s.state with
      | .ok a state => .ok a ⟨state, .store event :: s.log⟩
      | .error e state => .error e ⟨state, .store event :: s.log⟩ := rfl

namespace HeldStore

theorem lt_nextInstant (previous now : Instant) : previous < nextInstant previous now := by
  unfold nextInstant
  split_ifs with h
  · exact h
  · exact Int.lt_add_of_pos_right previous (by decide)

/-- Nobody writes without a later date. -/
theorem lt_modified_edit (store : HeldStore) (bytes : ByteArray) :
    store.modified < (store.edit bytes).modified :=
  lt_nextInstant _ _

instance : Dependable HeldStore where
  bytes store := store.bytes
  modified store := store.modified
  loaded store := store
  saved bytes store := store.save bytes
  lastModified_eq _ := rfl
  load_eq _ := rfl
  save_eq _ _ := rfl
  bytes_loaded _ := rfl
  modified_loaded _ := rfl
  bytes_saved _ _ := rfl
  lt_modified_saved _ _ := lt_nextInstant _ _

end HeldStore

namespace Locator

open Dependable (bytes modified loaded saved)

variable {σ α : Type}

theorem onDocument_eq (e : Edit α) (s : Trail (Locator σ)) :
    onDocument e s = match e s.state.document with
      | .ok a document => .ok a ⟨{ s.state with document }, s.log⟩
      | .error error document => .error error ⟨{ s.state with document }, s.log⟩ := by
  rw [onDocument, Task.within, Document.editing]
  cases e s.state.document <;> rfl

variable [Store σ]

theorem edit_of_tryEdit_ok {settings : Settings} {e : Edit α} {s t : Trail (Locator σ)} {a : α}
    (h : tryEdit settings e s = .ok a t) : edit settings e s = .ok a t := by
  have hattempt : Task.attempt (tryEdit settings e) s = .ok (.ok a) t := by
    rw [Task.attempt, h]
  exact (Task.bind_ok rfl).trans (Task.bind_ok hattempt)

theorem edit_of_tryEdit_error {settings : Settings} {e : Edit α} {s t : Trail (Locator σ)}
    {error : Error} (h : tryEdit settings e s = .error error t) :
    edit settings e s = .error error
      ⟨{ t.state with document := s.state.document }, t.log⟩ := by
  have hattempt : Task.attempt (tryEdit settings e) s = .ok (.error error) t := by
    rw [Task.attempt, h]
  exact (Task.bind_ok rfl).trans ((Task.bind_ok hattempt).trans rfl)

theorem tryEdit_eq (settings : Settings) {e : Edit α} {s : Trail (Locator σ)} {a : α} {d : Document}
    (h : e s.state.document = .ok a d) :
    tryEdit settings e s =
      if d.dirty then
        (do
          Task.ofExcept ((d.validate settings.format).mapError .invalidDocument)
          saveAndReload settings
          return a : Task (Locator σ) α) ⟨{ s.state with document := d }, s.log⟩
      else .ok a ⟨{ s.state with document := d }, s.log⟩ := by
  have hedit := onDocument_eq e s
  rw [h] at hedit
  refine (Task.bind_ok hedit).trans ((Task.bind_ok rfl).trans ?_)
  dsimp only
  split_ifs <;> rfl

variable [Dependable σ]

theorem onStore_lastModified (s : Trail (Locator σ)) :
    onStore (Store.call .lastModified Store.lastModified) s
      = .ok (modified s.state.store) ⟨s.state, .store .lastModified :: s.log⟩ := by
  rw [onStore, Task.within, Store.call_eq, Dependable.lastModified_eq]

theorem onStore_save (content : ByteArray) (s : Trail (Locator σ)) :
    onStore (Store.call .save (Store.save content)) s
      = .ok () ⟨{ s.state with store := saved content s.state.store }, .store .save :: s.log⟩ := by
  rw [onStore, Task.within, Store.call_eq, Dependable.save_eq]

theorem load_eq (format : SignatureFormat) (s : Trail σ) :
    load format s = match Document.ofBytes format (bytes s.state) with
      | .ok document => .ok (document, modified s.state)
        ⟨loaded s.state, .store .load :: .store .lastModified :: s.log⟩
      | .error e => .error e ⟨loaded s.state, .store .load :: .store .lastModified :: s.log⟩ := by
  have hmodified : Store.call .lastModified Store.lastModified s
      = .ok (modified s.state) ⟨s.state, .store .lastModified :: s.log⟩ := by
    rw [Store.call_eq, Dependable.lastModified_eq]
  have hload : Store.call .load Store.load ⟨s.state, .store .lastModified :: s.log⟩
      = .ok (bytes s.state) ⟨loaded s.state, .store .load :: .store .lastModified :: s.log⟩ := by
    rw [Store.call_eq, Dependable.load_eq]
  rw [load, Task.bind_ok hmodified, Task.bind_ok hload]
  cases Document.ofBytes format (bytes s.state) <;> rfl

theorem onStore_load (format : SignatureFormat) (s : Trail (Locator σ)) :
    onStore (load format) s = match Document.ofBytes format (bytes s.state.store) with
      | .ok document => .ok (document, modified s.state.store)
        ⟨{ s.state with store := loaded s.state.store },
          .store .load :: .store .lastModified :: s.log⟩
      | .error e => .error e ⟨{ s.state with store := loaded s.state.store },
          .store .load :: .store .lastModified :: s.log⟩ := by
  rw [onStore, Task.within, load_eq]
  cases Document.ofBytes format (bytes s.state.store) <;> rfl

theorem openStore_eq (settings : Settings) (s : Trail σ) :
    openStore settings s = match Document.ofBytes settings.format (bytes s.state) with
      | .ok document => .ok
        { store := loaded s.state, document, loadedAt := modified s.state,
          registry := settings.registry }
        ⟨loaded s.state, .store .load :: .store .lastModified :: s.log⟩
      | .error e => .error e ⟨loaded s.state, .store .load :: .store .lastModified :: s.log⟩ := by
  have hload := load_eq settings.format s
  rw [openStore]
  cases hread : Document.ofBytes settings.format (bytes s.state) <;> rw [hread] at hload
  · exact Task.bind_error hload
  · exact (Task.bind_ok hload).trans rfl

theorem reload_eq (settings : Settings) (s : Trail (Locator σ)) :
    reload settings s = match Document.ofBytes settings.format (bytes s.state.store) with
      | .ok document => .ok ()
        ⟨{ s.state with
            store := loaded s.state.store
            document
            loadedAt := modified s.state.store },
          .store .load :: .store .lastModified :: s.log⟩
      | .error e => .error e ⟨{ s.state with store := loaded s.state.store },
          .store .load :: .store .lastModified :: s.log⟩ := by
  have hload := onStore_load settings.format s
  rw [reload]
  cases hread : Document.ofBytes settings.format (bytes s.state.store) <;>
    simp only [hread] at hload
  · exact Task.bind_error hload
  · exact (Task.bind_ok hload).trans rfl

theorem refresh_eq (settings : Settings) (s : Trail (Locator σ)) :
    refresh settings s =
      if s.state.loadedAt < modified s.state.store then
        reload settings ⟨s.state, .store .lastModified :: s.log⟩
      else .ok () ⟨s.state, .store .lastModified :: s.log⟩ := by
  rw [refresh, Task.bind_ok (onStore_lastModified s)]
  change (if s.state.loadedAt < modified s.state.store then _ else _ : Task _ _) _ = _
  split_ifs <;> rfl

theorem saveAndReload_eq (settings : Settings) (s : Trail (Locator σ)) :
    saveAndReload settings s = reload settings
      ⟨{ s.state with
          store := saved s.state.document.toBytes s.state.store
          document := s.state.document.markClean },
        .store .save :: s.log⟩ := by
  rw [saveAndReload]
  refine (Task.bind_ok (t := s) rfl).trans ((Task.bind_ok (onStore_save _ s)).trans ?_)
  rfl

/-- A valid document without a formula that is too high is saved and loaded again as it is. -/
theorem saveAndReload_eq_ok {settings : Settings} {s : Trail (Locator σ)}
    (hvalid : s.state.document.validate settings.format = .ok ())
    (hshallow : s.state.document.IsShallow) :
    saveAndReload settings s = .ok ()
      ⟨{ s.state with
          store := loaded (saved s.state.document.toBytes s.state.store)
          document := s.state.document.markClean
          loadedAt := modified (saved s.state.document.toBytes s.state.store) },
        .store .load :: .store .lastModified :: .store .save :: s.log⟩ := by
  rw [saveAndReload_eq, reload_eq, Dependable.bytes_saved,
    Document.ofBytes_toBytes hvalid hshallow]

theorem saveAndReload_eq_error (settings : Settings) {s : Trail (Locator σ)}
    (hdeep : ¬ s.state.document.IsShallow) :
    ∃ fault, Document.ofBytes settings.format s.state.document.toBytes
          = .error (.invalidDocument fault)
      ∧ saveAndReload settings s = .error (.invalidDocument fault)
        ⟨{ s.state with
            store := loaded (saved s.state.document.toBytes s.state.store)
            document := s.state.document.markClean },
          .store .load :: .store .lastModified :: .store .save :: s.log⟩ := by
  have hread := Document.ofBytes_toBytes_of_not_isShallow settings.format hdeep
  exact ⟨.unreadable, hread, by rw [saveAndReload_eq, reload_eq, Dependable.bytes_saved, hread]⟩

/-! ## Edits -/

/-- Whether an edit comes to a changed document that is valid, so that it is saved. -/
def Saves (settings : Settings) (edit : Edit α) (document : Document) : Prop :=
  ∃ a d, edit document = .ok a d ∧ d.dirty = true ∧ d.validate settings.format = .ok ()

theorem saves_iff {settings : Settings} {edit : Edit α} {document d : Document} {a : α}
    (h : edit document = .ok a d) :
    Saves settings edit document ↔ d.dirty = true ∧ d.validate settings.format = .ok () := by
  refine ⟨?_, fun hd => ⟨a, d, h, hd⟩⟩
  rintro ⟨a', d', h', hd⟩
  cases h.symm.trans h'
  exact hd

/-- How an edit may end. -/
inductive EditEnds (settings : Settings) (edit : Edit α) (s : Trail (Locator σ)) :
    EStateM.Result Error (Trail (Locator σ)) α → Prop
  /-- The edit fails, or the document that it comes to is not valid. -/
  | refused (error : Error) :
    ¬ Saves settings edit s.state.document → EditEnds settings edit s (.error error s)
  /-- There is nothing to save. -/
  | unmarked {a : α} {d : Document} :
    edit s.state.document = .ok a d → d.dirty = false →
      EditEnds settings edit s (.ok a ⟨{ s.state with document := d }, s.log⟩)
  | saved {a : α} {d : Document} {log : List Event} :
    edit s.state.document = .ok a d → d.dirty = true → d.validate settings.format = .ok () →
      d.IsShallow → EditEnds settings edit s (.ok a
        ⟨{ s.state with
            store := loaded (saved d.toBytes s.state.store)
            document := d.markClean
            loadedAt := modified (saved d.toBytes s.state.store) }, log⟩)
  /-- The document is saved, but cannot be loaded again. -/
  | unreadable {a : α} {d : Document} {log : List Event} (fault : DocumentFault) :
    edit s.state.document = .ok a d → d.dirty = true → d.validate settings.format = .ok () →
      ¬ d.IsShallow → Document.ofBytes settings.format d.toBytes = .error (.invalidDocument fault) →
        EditEnds settings edit s (.error (.invalidDocument fault)
          ⟨{ s.state with store := loaded (saved d.toBytes s.state.store) }, log⟩)

theorem edit_ends (settings : Settings) (e : Edit α) (s : Trail (Locator σ)) :
    EditEnds settings e s (edit settings e s) := by
  cases hresult : e s.state.document with
  | error error d =>
    have hedit := onDocument_eq e s
    rw [hresult] at hedit
    have htry : tryEdit settings e s = _ := Task.bind_error hedit
    rw [edit_of_tryEdit_error htry]
    refine .refused error ?_
    rintro ⟨a, d', hok, -⟩
    rw [hresult] at hok
    cases hok
  | ok a d =>
    have htry := tryEdit_eq settings hresult
    split_ifs at htry with hdirty
    · cases hvalid : d.validate settings.format with
      | error fault =>
        rw [hvalid] at htry
        rw [edit_of_tryEdit_error (htry.trans (Task.bind_error rfl))]
        refine .refused _ fun hsaves => ?_
        rw [saves_iff hresult, hvalid] at hsaves
        cases hsaves.2
      | ok _ =>
        rw [hvalid] at htry
        have htry := htry.trans (Task.bind_ok rfl)
        by_cases hshallow : d.IsShallow
        · have hsave := saveAndReload_eq_ok (s := ⟨{ s.state with document := d }, s.log⟩)
            hvalid hshallow
          rw [edit_of_tryEdit_ok (htry.trans ((Task.bind_ok hsave).trans rfl))]
          exact .saved hresult hdirty hvalid hshallow
        · obtain ⟨fault, hread, hsave⟩ := saveAndReload_eq_error settings
            (s := ⟨{ s.state with document := d }, s.log⟩) hshallow
          rw [edit_of_tryEdit_error (htry.trans (Task.bind_error hsave))]
          exact .unreadable fault hresult hdirty hvalid hshallow hread
    · rw [edit_of_tryEdit_ok htry]
      exact .unmarked hresult (by simpa using hdirty)

end Locator

end Landmark
