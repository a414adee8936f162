import Mathlib.Tactic.Common
import Mathlib.Data.Int.Basic
import Landmark.Proofs.Calls
import Landmark.Proofs.Resolution

/-!
# Sessions

A session is any run of a locator over a store whose calls never fail: calls of the locator in any
order, and changes of the store by others in between (`Reachable`). Through every session the
locator stays coherent with its store (`Reachable.coherent`): unless the store has a later document
than the one in use, its bytes are a document of the same meaning.
-/

namespace Landmark

namespace Locator

open Dependable (bytes modified loaded saved)

variable {σ : Type} [Store σ]

/-- A step of a session. -/
inductive Move (σ : Type) : Type 1
  | getAddress (name : String)
  | reset
  | reload
  | edit {α : Type} (e : Edit α)
  /-- Somebody else changes the store. -/
  | outside (change : σ → σ)

/-- What a step leaves, whether it fails or not. -/
def Move.apply (target : Target) (settings : Settings) :
    Move σ → Trail (Locator σ) → Trail (Locator σ)
  | .getAddress name => (Locator.getAddress target settings name).final
  | .reset => fun s => { s with state := s.state.reset }
  | .reload => (Locator.reload settings).final
  | .edit e => (Locator.edit settings e).final
  | .outside change => fun s => { s with state := { s.state with store := change s.state.store } }

/-- What a number of steps leave. -/
def run (target : Target) (settings : Settings) (moves : List (Move σ)) (s : Trail (Locator σ)) :
    Trail (Locator σ) :=
  moves.foldl (fun s move => move.apply target settings s) s

/-- Steps with composed edits, where others change the store in the given ways only. -/
def Move.Allowed (others : (σ → σ) → Prop) : Move σ → Prop
  | .edit e => e.Composed
  | .outside change => others change
  | _ => True

/-- The states of all sessions. -/
inductive Reachable (target : Target) (settings : Settings) (others : (σ → σ) → Prop) :
    Trail (Locator σ) → Prop
  | opened {s t : Trail σ} {locator : Locator σ} :
    openStore settings s = .ok locator t → Reachable target settings others ⟨locator, t.log⟩
  | move {s : Trail (Locator σ)} (move : Move σ) :
    move.Allowed others → Reachable target settings others s →
      Reachable target settings others (move.apply target settings s)

variable {target : Target} {settings : Settings}

theorem Reachable.run {others : (σ → σ) → Prop} {moves : List (Move σ)} :
    ∀ {s : Trail (Locator σ)}, Reachable target settings others s →
      (∀ move ∈ moves, move.Allowed others) →
        Reachable target settings others (run target settings moves s) := by
  induction moves with
  | nil => exact fun hs _ => hs
  | cons move moves ih =>
    intro s hs hallowed
    rw [List.forall_mem_cons] at hallowed
    exact ih (.move move hallowed.1 hs) hallowed.2

variable [Dependable σ]

theorem openStore_empty (store : σ) (h : bytes store = .empty) :
    openStore settings ⟨store, []⟩ = .ok
      { store := loaded store, document := {}, loadedAt := modified store,
        registry := settings.registry }
      ⟨loaded store, [.store .load, .store .lastModified]⟩ := by
  rw [openStore_eq, h, Document.ofBytes_empty]

/-- How a document in use stands to the store. -/
structure Coherent (target : Target) (settings : Settings) (locator : Locator σ) : Prop where
  loadedAt_le : locator.loadedAt ≤ modified locator.store
  offer : locator.scene.registry.SameOffer settings.operators
  exists_base : modified locator.store ≤ locator.loadedAt →
    ∃ base, Document.ofBytes settings.format (bytes locator.store) = .ok base
      ∧ locator.document.meaning target settings = base.meaning target settings

namespace Coherent

/-- After a load the document in use is the one in the store. -/
theorem of_ofBytes (locator : Locator σ) {document : Document}
    (hoffer : locator.scene.registry.SameOffer settings.operators)
    (h : Document.ofBytes settings.format (bytes locator.store) = .ok document) :
    Coherent target settings
      { locator with
        store := loaded locator.store
        document
        loadedAt := modified locator.store } where
  loadedAt_le := Int.le_of_eq (Dependable.modified_loaded _).symm
  offer := hoffer
  exists_base _ := ⟨document, by rwa [Dependable.bytes_loaded], rfl⟩

/-- A store that was written since is not compared. -/
theorem of_lt (locator : Locator σ) (hoffer : locator.scene.registry.SameOffer settings.operators)
    (h : locator.loadedAt < modified locator.store) : Coherent target settings locator where
  loadedAt_le := Int.le_of_lt h
  offer := hoffer
  exists_base hle := absurd h (Int.not_lt.2 hle)

theorem loaded_store {locator : Locator σ} (h : Coherent target settings locator) :
    Coherent target settings { locator with store := loaded locator.store } where
  loadedAt_le := by
    rw [Dependable.modified_loaded]
    exact h.loadedAt_le
  offer := h.offer
  exists_base hle := by
    rw [Dependable.modified_loaded] at hle
    rw [Dependable.bytes_loaded]
    exact h.exists_base hle

theorem evaluated {before after : Locator σ} (h : Coherent target settings before)
    (he : Evaluated target settings before after) : Coherent target settings after where
  loadedAt_le := by
    rw [he.loadedAt_eq, he.store_eq]
    exact h.loadedAt_le
  offer i := (he.offer i).trans (h.offer i)
  exists_base hle := by
    rw [he.loadedAt_eq, he.store_eq] at hle
    obtain ⟨base, hread, hmeaning⟩ := h.exists_base hle
    rw [he.store_eq]
    exact ⟨base, hread, he.document.meaning_eq.trans hmeaning⟩

theorem valid {locator : Locator σ} (h : Coherent target settings locator)
    (hle : modified locator.store ≤ locator.loadedAt) :
    locator.document.validate settings.format = .ok () ∧ locator.document.IsShallow := by
  obtain ⟨base, hread, hmeaning⟩ := h.exists_base hle
  obtain ⟨hvalid, hshallow, -⟩ := Document.of_ofBytes_eq_ok hread
  exact ⟨(Document.validate_congr hmeaning _).trans hvalid,
    (Document.isShallow_congr (congrArg Prod.snd hmeaning)).2 hshallow⟩

end Coherent

/-! ## Resolving in a session -/

/-- What a locator refreshes to. -/
inductive Refreshed (settings : Settings) (locator : Locator σ) : Locator σ → Prop
  | current : modified locator.store ≤ locator.loadedAt → Refreshed settings locator locator
  | later {document : Document} :
    locator.loadedAt < modified locator.store →
      Document.ofBytes settings.format (bytes locator.store) = .ok document →
        Refreshed settings locator
          { locator with
            store := loaded locator.store
            document
            loadedAt := modified locator.store }

theorem Refreshed.coherent {locator locator' : Locator σ}
    (hrefreshed : Refreshed settings locator locator')
    (h : Coherent target settings locator) : Coherent target settings locator'
      ∧ modified locator'.store ≤ locator'.loadedAt ∧ locator'.addresses = locator.addresses := by
  cases hrefreshed with
  | current hle => exact ⟨h, hle, rfl⟩
  | later hlt hread =>
    exact ⟨.of_ofBytes locator h.offer hread, Int.le_of_eq (Dependable.modified_loaded _), rfl⟩

/-- How a resolution may end: the name is known, or the store has a later document that cannot be
loaded, or the document in use gives an error, or it gives the address, with or without findings
that are saved. -/
inductive GetEnds (target : Target) (settings : Settings) (name : String)
    (s : Trail (Locator σ)) : EStateM.Result Error (Trail (Locator σ)) UInt64 → Prop
  | known {address : UInt64} :
    s.state.addresses.get? name = some address → GetEnds target settings name s (.ok address s)
  | unloadable {error : Error} {log : List Event} :
    s.state.addresses.get? name = none → s.state.loadedAt < modified s.state.store →
      Document.ofBytes settings.format (bytes s.state.store) = .error error →
        GetEnds target settings name s
          (.error error ⟨{ s.state with store := loaded s.state.store }, log⟩)
  | failed {current after : Locator σ} {error : Error} {log : List Event} :
    s.state.addresses.get? name = none → Refreshed settings s.state current →
      Evaluated target settings current after →
        current.answerOf target settings name = .error error →
          GetEnds target settings name s (.error error ⟨after, log⟩)
  | found {current after : Locator σ} {address : UInt64} {log : List Event} :
    s.state.addresses.get? name = none → Refreshed settings s.state current →
      Evaluated target settings current after →
        current.answerOf target settings name = .ok address → after.document.dirty = false →
          GetEnds target settings name s (.ok address
            ⟨{ after with addresses := (after.addresses.insert name address).2 }, log⟩)
  | saved {current after : Locator σ} {address : UInt64} {log : List Event} :
    s.state.addresses.get? name = none → Refreshed settings s.state current →
      Evaluated target settings current after →
        current.answerOf target settings name = .ok address → after.document.dirty = true →
          after.document.validate settings.format = .ok () → after.document.IsShallow →
            GetEnds target settings name s (.ok address
              ⟨{ after with
                  store := loaded (saved after.document.toBytes after.store)
                  document := after.document.markClean
                  loadedAt := modified (saved after.document.toBytes after.store)
                  addresses := (after.addresses.insert name address).2 }, log⟩)

theorem refresh_cases (settings : Settings) (s : Trail (Locator σ)) :
    (∃ error log,
      refresh settings s = .error error ⟨{ s.state with store := loaded s.state.store }, log⟩
        ∧ s.state.loadedAt < modified s.state.store
        ∧ Document.ofBytes settings.format (bytes s.state.store) = .error error)
      ∨ ∃ t : Trail (Locator σ), refresh settings s = .ok () t
        ∧ Refreshed settings s.state t.state := by
  rw [refresh_eq]
  split_ifs with hlt
  · rw [reload_eq]
    cases hread : Document.ofBytes settings.format (bytes s.state.store) with
    | error error => exact .inl ⟨error, _, rfl, hlt, rfl⟩
    | ok document => exact .inr ⟨_, rfl, .later hlt hread⟩
  · exact .inr ⟨_, rfl, .current (Int.not_lt.1 hlt)⟩

theorem getAddress_ends (name : String) {s : Trail (Locator σ)}
    (h : Coherent target settings s.state) :
    GetEnds target settings name s (getAddress target settings name s) := by
  cases hname : s.state.addresses.get? name with
  | some address =>
    rw [getAddress_of_known target settings hname]
    exact .known hname
  | none =>
    rw [getAddress_of_unknown target settings hname]
    obtain ⟨error, log, hrefresh, hlt, hread⟩ | ⟨t, hrefresh, hrefreshed⟩ :=
      refresh_cases settings s
    · rw [Task.bind_error hrefresh]
      exact .unloadable hname hlt hread
    · obtain ⟨hcoherent, hle, haddresses⟩ := hrefreshed.coherent h
      obtain ⟨u, hevaluated, hresolve⟩ := exists_resolve_eq target settings name t
      rw [Task.bind_ok hrefresh, hresolve]
      cases hanswer : t.state.answerOf target settings name with
      | error error => exact .failed hname hrefreshed hevaluated hanswer
      | ok address =>
        have hunknown : u.state.addresses.get? name = none := by
          rw [hevaluated.addresses_eq, haddresses, hname]
        have hinsert : (u.state.addresses.insert name address).1 = address := by
          rw [Addresses.insert, hunknown]
        dsimp only
        split_ifs with hdirty
        · have hvalid := (hcoherent.evaluated hevaluated).valid (by
            rw [hevaluated.store_eq, hevaluated.loadedAt_eq]
            exact hle)
          rw [Task.bind_ok (saveAndReload_eq_ok hvalid.1 hvalid.2), remember_eq]
          dsimp only
          rw [hinsert]
          exact .saved hname hrefreshed hevaluated hanswer hdirty hvalid.1 hvalid.2
        · rw [remember_eq, hinsert]
          exact .found hname hrefreshed hevaluated hanswer (by simpa using hdirty)

/-! ## Coherence through sessions -/

/-- What was saved and loaded again is coherent. -/
theorem Coherent.of_saved (locator : Locator σ) {document : Document}
    (hoffer : locator.scene.registry.SameOffer settings.operators)
    (hvalid : document.validate settings.format = .ok ()) (hshallow : document.IsShallow) :
    Coherent target settings
      { locator with
        store := loaded (saved document.toBytes locator.store)
        document := document.markClean
        loadedAt := modified (saved document.toBytes locator.store) } :=
  .of_ofBytes { locator with store := saved document.toBytes locator.store } hoffer
    (by rw [Dependable.bytes_saved, Document.ofBytes_toBytes hvalid hshallow])

theorem Coherent.getAddress {s : Trail (Locator σ)} (h : Coherent target settings s.state)
    (name : String) :
    Coherent target settings ((getAddress target settings name).final s).state := by
  have hends := getAddress_ends name h
  unfold Task.final
  generalize Locator.getAddress target settings name s = result at hends ⊢
  cases hends with
  | known _ => exact h
  | unloadable _ _ _ => exact h.loaded_store
  | failed _ hrefreshed hevaluated _ => exact (hrefreshed.coherent h).1.evaluated hevaluated
  | found _ hrefreshed hevaluated _ _ =>
    obtain ⟨hle, hoffer, hbase⟩ := (hrefreshed.coherent h).1.evaluated hevaluated
    exact ⟨hle, hoffer, hbase⟩
  | @saved _ after address _ _ hrefreshed hevaluated _ _ hvalid hshallow =>
    exact .of_saved
      { after with addresses := (after.addresses.insert name address).2 }
      ((hrefreshed.coherent h).1.evaluated hevaluated).offer hvalid hshallow

theorem Coherent.reload {s : Trail (Locator σ)} (h : Coherent target settings s.state) :
    Coherent target settings ((reload settings).final s).state := by
  rw [Task.final, reload_eq]
  cases hread : Document.ofBytes settings.format (bytes s.state.store) with
  | error _ => exact h.loaded_store
  | ok _ => exact .of_ofBytes s.state h.offer hread

theorem Coherent.edit {α : Type} {e : Edit α} {s : Trail (Locator σ)}
    (h : Coherent target settings s.state) (he : e.Composed) :
    Coherent target settings ((edit settings e).final s).state := by
  have hends := edit_ends settings e s
  unfold Task.final
  generalize Locator.edit settings e s = result at hends ⊢
  cases hends with
  | refused _ _ => exact h
  | @unmarked a d hedit hclean =>
    cases he.eq_of_unmarked hedit hclean
    exact h
  | saved _ _ hvalid hshallow => exact .of_saved s.state h.offer hvalid hshallow
  | @unreadable _ d _ _ _ _ _ _ _ =>
    have hlt := Int.lt_of_le_of_lt h.loadedAt_le
      (Dependable.lt_modified_saved d.toBytes s.state.store)
    exact (Coherent.of_lt { s.state with store := saved d.toBytes s.state.store } h.offer
      hlt).loaded_store

/-- A locator is coherent in every state of a session in which others date their changes. -/
theorem Reachable.coherent {others : (σ → σ) → Prop}
    (hothers : ∀ change, others change → ∀ store, modified store < modified (change store))
    {s : Trail (Locator σ)} (h : Reachable target settings others s) :
    Coherent target settings s.state := by
  induction h with
  | @opened s t locator hopen =>
    rw [openStore_eq] at hopen
    cases hread : Document.ofBytes settings.format (bytes s.state) with
    | error e =>
      rw [hread] at hopen
      cases hopen
    | ok document =>
      rw [hread] at hopen
      cases hopen
      exact .of_ofBytes ⟨s.state, document, modified s.state, {}, settings.registry⟩
        (fun _ => rfl) hread
  | move m hallowed _ ih =>
    cases m with
    | getAddress name => exact ih.getAddress name
    | reset => exact ⟨ih.loadedAt_le, ih.offer, ih.exists_base⟩
    | reload => exact ih.reload
    | edit e => exact ih.edit hallowed
    | outside change =>
      exact .of_lt _ ih.offer (Int.lt_of_le_of_lt ih.loadedAt_le (hothers change hallowed _))

end Locator

end Landmark
