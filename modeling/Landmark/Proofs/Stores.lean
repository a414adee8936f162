import Mathlib.Tactic.Common
import Landmark.Locator.Basic
import Landmark.Proofs.Lookups

/-!
# Stores that answer alike

A locator knows its store from the calls alone: over stores whose calls agree, two locators that
hold the same otherwise give the same answers and go on holding the same (`getAddress_agree`,
`reload_agree`, `edit_agree`).
-/

namespace Landmark

open Landmark.Task (Agree)

theorem Document.editing_agree {α : Type} (edit : Edit α) :
    Agree Eq (editing edit) (editing edit) := by
  rintro ⟨document, log⟩ ⟨_, log'⟩ rfl
  unfold editing
  dsimp only
  cases edit document with
  | ok a d => exact .ok a rfl
  | error e d => exact .error e rfl

theorem Document.locate_agree_eq (target : Target) (settings : Settings) (name : String) :
    Agree Eq (locate target settings name) (locate target settings name) := by
  refine .getState_bind ?_
  rintro document _ rfl
  split
  · exact .throw _
  · split
    · exact .throw _
    · split
      · exact .pure _
      · exact .bind (.ofExcept _) fun signature => .bind (.record _) fun _ =>
          .bind (Search.findFirstInModule_agree _ target) fun address =>
            .bind (.record _) fun _ => .bind (editing_agree _) fun _ => .pure address

variable {σ τ α : Type} {Q : σ → τ → Prop}

/-- A relation of stores whose calls agree. -/
structure Store.Alike (Q : σ → τ → Prop) [Store σ] [Store τ] : Prop where
  lastModified : Agree Q (Store.call .lastModified Store.lastModified)
    (Store.call .lastModified Store.lastModified)
  load : Agree Q (Store.call .load Store.load) (Store.call .load Store.load)
  save (bytes : ByteArray) :
    Agree Q (Store.call .save (Store.save bytes)) (Store.call .save (Store.save bytes))

namespace Locator

/-- Locators that hold the same over related stores. -/
structure Alike (Q : σ → τ → Prop) (locator : Locator σ) (locator' : Locator τ) : Prop where
  store : Q locator.store locator'.store
  document : locator.document = locator'.document
  loadedAt : locator.loadedAt = locator'.loadedAt
  addresses : locator.addresses = locator'.addresses
  registry : locator.registry = locator'.registry

theorem onStore_agree {task : Task σ α} {task' : Task τ α} (h : Agree Q task task') :
    Agree (Alike Q) (onStore task) (onStore task') :=
  .within (fun _ _ hst => hst.store)
    (fun _ _ _ _ hst hpq => ⟨hpq, hst.document, hst.loadedAt, hst.addresses, hst.registry⟩) h

theorem evaluate_agree_alike (target : Target) (settings : Settings) (formula : Formula) :
    Agree (Alike Q) (evaluate target settings formula) (evaluate target settings formula) := by
  refine .within (Q := Scene.Alike Eq Eq)
    (fun s t hst => ⟨?_, hst.document⟩)
    (fun s t p q hst hpq => ⟨hst.store, hpq.patterns, hst.loadedAt, hst.addresses, ?_⟩)
    (Formula.evaluateAddress_agree Registry.respects_eq _
      (Document.locate_agree_eq target settings) formula)
  · rw [scene, scene, hst.registry]
  · rw [putScene, putScene, hst.registry, hpq.registry]

variable [Store σ] [Store τ] (target : Target) (settings : Settings) (h : Store.Alike Q)

include h

theorem load_agree (format : SignatureFormat) : Agree Q (load format) (load format) :=
  .bind h.lastModified fun _ => .bind h.load fun _ => .bind (.ofExcept _) fun _ => .pure _

theorem reload_agree : Agree (Alike Q) (reload settings) (reload settings) := by
  refine .bind (onStore_agree (load_agree h settings.format)) fun found => ?_
  exact .getState_bind fun s t hst => .setState ⟨hst.store, rfl, rfl, hst.addresses, hst.registry⟩

theorem refresh_agree : Agree (Alike Q) (refresh settings) (refresh settings) := by
  refine .bind (onStore_agree h.lastModified) fun modified => .getState_bind fun s t hst => ?_
  rw [hst.loadedAt]
  split_ifs
  · exact reload_agree settings h
  · exact .pure _

theorem saveAndReload_agree :
    Agree (Alike Q) (saveAndReload settings) (saveAndReload settings) := by
  refine .getState_bind fun s t hst => ?_
  rw [hst.document]
  refine .bind (onStore_agree (h.save _)) fun _ => .getState_bind fun s t hst => ?_
  refine .bind (.setState ⟨hst.store, ?_, hst.loadedAt, hst.addresses, hst.registry⟩) fun _ =>
    reload_agree settings h
  exact congrArg Document.markClean hst.document

theorem resolve_agree (name : String) :
    Agree (Alike Q) (resolve target settings name) (resolve target settings name) := by
  refine .getState_bind fun s t hst => ?_
  rw [hst.document]
  cases t.document.offset? name with
  | none => exact .throw _
  | some entry =>
    refine .bind (evaluate_agree_alike target settings _) fun address =>
      .getState_bind fun s t hst => ?_
    have hremember : Agree (Alike Q) (remember name address) (remember name address) := by
      refine .getState_bind fun s t hst => ?_
      rw [hst.addresses]
      exact .bind (.setState ⟨hst.store, hst.document, hst.loadedAt, rfl, hst.registry⟩) fun _ =>
        .pure _
    rw [hst.document]
    split_ifs
    · exact .bind (saveAndReload_agree settings h) fun _ => hremember
    · exact hremember

theorem getAddress_agree (name : String) :
    Agree (Alike Q) (getAddress target settings name) (getAddress target settings name) := by
  refine .getState_bind fun s t hst => ?_
  rw [hst.addresses]
  cases t.addresses.get? name with
  | some address => exact .pure address
  | none => exact .bind (refresh_agree settings h) fun _ => resolve_agree target settings h name

theorem edit_agree (edit : Edit α) :
    Agree (Alike Q) (Locator.edit settings edit) (Locator.edit settings edit) := by
  have hdocument : Agree (Alike Q) (onDocument edit) (onDocument edit) :=
    .within (fun _ _ hst => hst.document)
      (fun _ _ _ _ hst hpq => ⟨hst.store, hpq, hst.loadedAt, hst.addresses, hst.registry⟩)
      (Document.editing_agree edit)
  have htry : Agree (Alike Q) (tryEdit settings edit) (tryEdit settings edit) := by
    refine .bind hdocument fun a => .getState_bind fun s t hst => ?_
    rw [hst.document]
    dsimp only
    split_ifs
    · exact .bind (.ofExcept _) fun _ => .bind (saveAndReload_agree settings h) fun _ => .pure a
    · exact .pure a
  refine .getState_bind fun s t hst => .bind (.attempt htry) fun result => ?_
  cases result with
  | ok a => exact .pure a
  | error e =>
    refine .getState_bind fun s' t' hst' => ?_
    rw [hst.document]
    exact .bind (.setState ⟨hst'.store, rfl, hst'.loadedAt, hst'.addresses, hst'.registry⟩)
      fun _ => .throw e

end Locator

end Landmark
