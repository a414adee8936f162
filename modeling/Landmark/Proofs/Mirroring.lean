import Mathlib.Tactic.Common
import Landmark.Proofs.Unsteady

/-!
# A document in use mirrors the stored one

Over a store that refuses calls the document in use may hold findings that are not saved, the store
may hold a document that was saved but not loaded again, and an edit may have been taken back after
it was saved. In all of these states the store is later than the document in use, or else its bytes
are that document, up to unsaved findings if it counts as changed (`mirrors_of_visited`). So every
phase of a call keeps `Mirrors`, and so does an edit wherever it fails.
-/

namespace Landmark

namespace Locator

variable {target : Target} {settings : Settings}

/-- The states of all sessions over stores that refuse calls. The memory of the target may be
another one at each step. -/
inductive Visited (settings : Settings) : Trail (Locator UnsteadyStore) → Prop
  | opened {s t : Trail UnsteadyStore} {locator : Locator UnsteadyStore} :
    openStore settings s = .ok locator t → Visited settings ⟨locator, t.log⟩
  | move {s : Trail (Locator UnsteadyStore)} (target : Target) (move : Move UnsteadyStore) :
    move.Allowed UnsteadyStore.Outside → Visited settings s →
      Visited settings (move.apply target settings s)

/-- How a document in use stands to the bytes in the store. -/
structure Mirrors (settings : Settings) (locator : Locator UnsteadyStore) : Prop where
  loadedAt_le : locator.loadedAt ≤ locator.store.held.modified
  exists_base : locator.store.held.modified ≤ locator.loadedAt →
    ∃ base, Document.ofBytes settings.format locator.store.held.bytes = .ok base
      ∧ (locator.document.dirty = false → locator.document = base)
      ∧ locator.document.definitions = base.definitions

namespace Mirrors

theorem of_lt {locator : Locator UnsteadyStore}
    (h : locator.loadedAt < locator.store.held.modified) : Mirrors settings locator :=
  ⟨Int.le_of_lt h, fun hle => absurd h (Int.not_lt.2 hle)⟩

theorem of_ofBytes {locator : Locator UnsteadyStore}
    (hread : Document.ofBytes settings.format locator.store.held.bytes = .ok locator.document)
    (htime : locator.loadedAt = locator.store.held.modified) : Mirrors settings locator :=
  ⟨Int.le_of_eq htime, fun _ => ⟨_, hread, fun _ => rfl, rfl⟩⟩

variable {s t : Trail (Locator UnsteadyStore)}

theorem phase {evaluated : OffsetEntry → Prop} (h : Mirrors settings s.state)
    (hphase : Phase target settings evaluated s t) : Mirrors settings t.state := by
  cases hphase with
  | asked _ _ | unreadable _ | named _ => exact ⟨h.loadedAt_le, h.exists_base⟩
  | took _ hread => exact of_ofBytes hread rfl
  | gave _ _ => exact of_lt (Int.lt_of_le_of_lt h.loadedAt_le (HeldStore.lt_nextInstant _ _))
  | @evaluated entry _ _ =>
    have hev := evaluated_final target settings entry.formula s
    generalize ((evaluate target settings entry.formula).final s).state = after at hev ⊢
    refine ⟨by simpa only [hev.loadedAt_eq, hev.store_eq] using h.loadedAt_le, fun hle => ?_⟩
    rw [hev.store_eq, hev.loadedAt_eq] at hle
    obtain ⟨base, hread, hclean, hdefinitions⟩ := h.exists_base hle
    refine ⟨base, hev.store_eq ▸ hread, fun hunmarked => ?_,
      (Document.definitions_congr hev.document.meaning_eq).trans hdefinitions⟩
    -- an evaluation that has found something has marked the document
    have hsame := hev.document.eq_of_unmarked hunmarked
    rw [hsame] at hunmarked ⊢
    exact hclean hunmarked

theorem path {evaluated : OffsetEntry → Prop} (h : Mirrors settings s.state)
    (hpath : Path target settings evaluated s t) : Mirrors settings t.state := by
  induction hpath with
  | refl => exact h
  | tail _ hphase ih => exact ih.phase hphase

theorem reload (h : Mirrors settings s.state) :
    Mirrors settings ((Locator.reload settings).final s).state := by
  have hends := reload_ends settings s
  unfold Task.final
  generalize Locator.reload settings s = result at hends ⊢
  cases hends with
  | untimed _ | refused _ | unreadable _ _ => exact ⟨h.loadedAt_le, h.exists_base⟩
  | loaded _ hread => exact of_ofBytes hread rfl

/-- When a document is given up for the one before, the store is as it was or later. -/
theorem of_saveAndReload {snapshot : Document}
    (h : Mirrors settings { s.state with document := snapshot }) :
    match saveAndReload settings s with
    | .ok _ t => Mirrors settings t.state
    | .error _ t => Mirrors settings { t.state with document := snapshot } := by
  rcases hrefused : s.state.store.refused with _ | e
  · rw [saveAndReload_given settings hrefused]
    have hends := reload_ends settings (gave s)
    have hlt : s.state.loadedAt < (gave s).state.store.held.modified :=
      Int.lt_of_le_of_lt h.loadedAt_le (HeldStore.lt_nextInstant _ _)
    generalize Locator.reload settings (gave s) = result at hends ⊢
    cases hends with
    | untimed _ | refused _ | unreadable _ _ => exact of_lt hlt
    | loaded _ hread => exact of_ofBytes hread rfl
  · rw [saveAndReload_refused settings hrefused]
    exact ⟨h.loadedAt_le, h.exists_base⟩

theorem edit {α : Type} {e : Edit α} (h : Mirrors settings s.state) (he : e.Composed) :
    Mirrors settings ((Locator.edit settings e).final s).state := by
  rcases hresult : e s.state.document with ⟨a, d⟩ | ⟨error, d⟩
  · have htry := tryEdit_eq settings hresult
    split_ifs at htry with hdirty
    · rcases hvalid : d.validate settings.format with fault | _
      · rw [hvalid] at htry
        rw [Task.final_of_error (edit_of_tryEdit_error (htry.trans (Task.bind_error rfl)))]
        exact h
      · rw [hvalid] at htry
        have htry := htry.trans (Task.bind_ok rfl)
        let changed : Trail (Locator UnsteadyStore) := ⟨{ s.state with document := d }, s.log⟩
        have hsave := of_saveAndReload (s := changed) h
        rcases hsaved : saveAndReload settings changed with ⟨_, t⟩ | ⟨error, t⟩ <;>
          rw [hsaved] at hsave
        · rw [Task.final_of_ok (edit_of_tryEdit_ok (htry.trans (Task.bind_ok hsaved)))]
          exact hsave
        · rw [Task.final_of_error (edit_of_tryEdit_error (htry.trans (Task.bind_error hsaved)))]
          exact hsave
    · rw [Task.final_of_ok (edit_of_tryEdit_ok htry)]
      cases he.eq_of_unmarked hresult (by simpa using hdirty)
      exact h
  · have hedit := onDocument_eq e s
    rw [hresult] at hedit
    have htry : tryEdit settings e s = _ := Task.bind_error hedit
    rw [Task.final_of_error (edit_of_tryEdit_error htry)]
    exact h

theorem apply {move : Move UnsteadyStore} (h : Mirrors settings s.state)
    (hallowed : move.Allowed UnsteadyStore.Outside) :
    Mirrors settings (move.apply target settings s).state := by
  cases move with
  | getAddress name => exact h.path (getAddress_path name)
  | reset => exact ⟨h.loadedAt_le, h.exists_base⟩
  | reload => exact h.reload
  | edit e => exact h.edit hallowed
  | outside change =>
    obtain ⟨bytes, rfl⟩ := hallowed
    exact of_lt (Int.lt_of_le_of_lt h.loadedAt_le (s.state.store.held.lt_modified_edit bytes))

end Mirrors

theorem Visited.mirrors {s : Trail (Locator UnsteadyStore)} (h : Visited settings s) :
    Mirrors settings s.state := by
  induction h with
  | opened hopen =>
    obtain ⟨document, hread, -, -, rfl, -⟩ := openStore_eq_ok hopen
    exact .of_ofBytes hread rfl
  | move target move hallowed _ ih => exact ih.apply hallowed

/-- In every state of a session, unless the store is later than the document in use, its bytes are
that document, up to findings if there are unsaved ones. A call that gives an address of its own
leaves none unsaved and the store not later. -/
theorem mirrors_of_visited {s : Trail (Locator UnsteadyStore)} (h : Visited settings s) :
    (s.state.store.held.modified ≤ s.state.loadedAt →
      ∃ base, Document.ofBytes settings.format s.state.store.held.bytes = .ok base
        ∧ (s.state.document.dirty = false → s.state.document = base)
        ∧ s.state.document.definitions = base.definitions)
      ∧ ∀ (target : Target) (name : String) (address : UInt64) (t : Trail (Locator UnsteadyStore)),
        s.state.addresses.contains name = false →
          getAddress target settings name s = .ok address t →
            t.state.document.dirty = false ∧ t.state.store.held.modified ≤ t.state.loadedAt := by
  refine ⟨h.mirrors.exists_base, fun target name address t hname hget => ?_⟩
  have hunknown : s.state.addresses.get? name = none := by
    simpa [Addresses.contains] using hname
  exact getAddress_eq_ok hunknown hget

/-- An edit whose save is refused. -/
theorem mirrors_of_visited_refused :
    let target : Target := ⟨⟨0x1000, 0, "1.0"⟩, ⟨fun _ _ => .ok [], fun _ _ => none, 8⟩, false⟩
    let refusal : Nat → Option Error := fun n => if n = 2 then some .noMatch else none
    let s : Trail (Locator UnsteadyStore) :=
      ⟨{ store := { refusal, calls := 2 }, document := {}, loadedAt := .epoch },
        [.store .load, .store .lastModified]⟩
    let after := Move.apply target {} (.edit (.addOffset ⟨"Code", none⟩)) s
    Visited {} after ∧ after.log = [.store .save, .store .load, .store .lastModified]
      ∧ ∃ base, Document.ofBytes {} after.state.store.held.bytes = .ok base
        ∧ after.state.document = base := by
  intro target refusal s after
  have hopen : openStore {} ⟨({ refusal } : UnsteadyStore), []⟩
      = .ok s.state ⟨s.state.store, s.log⟩ :=
    openStore_fresh {} refusal rfl rfl (Document.ofBytes_empty _)
  have hedit : Move.Allowed UnsteadyStore.Outside (.edit (.addOffset ⟨"Code", none⟩)) :=
    Edit.Composed.addOffset _
  have hvisited : Visited {} after := .move target _ hedit (.opened hopen)
  obtain ⟨base, hread, hclean, -⟩ := (mirrors_of_visited hvisited).1 (by decide)
  exact ⟨hvisited, rfl, base, hread, hclean rfl⟩

end Locator

end Landmark
