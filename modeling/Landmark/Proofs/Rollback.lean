import Mathlib.Tactic.Common
import Mathlib.Logic.Function.Iterate
import Landmark.Proofs.Freshness

/-!
# Edits that are taken back

An edit that fails leaves the document in use as it was, and as a rule the whole locator with its
store. The one exception is an edit whose document is valid but cannot be read again, for a formula
that is too high: it is saved before the failure comes up (`edit_error_iff`). From then on no name
can be resolved that is not known yet, until somebody else replaces the bytes.
-/

namespace Landmark

namespace Formula

theorem height_iterate (operator : String) (value : Option String) (leaf : Formula) :
    ∀ n, ((unary operator value)^[n] leaf).height = leaf.height + n
  | 0 => rfl
  | n + 1 => by
    rw [Function.iterate_succ_apply', height, height_iterate operator value leaf n]
    rfl

theorem validate_iterate (operator : String) (value : Option String) (leaf : Formula)
    (h : requireOperator operator = .ok ()) :
    ∀ n, ((unary operator value)^[n] leaf).validate = leaf.validate
  | 0 => rfl
  | n + 1 => by
    rw [Function.iterate_succ_apply', validate, h]
    exact validate_iterate operator value leaf h n

end Formula

namespace Locator

variable {α : Type} {target : Target} {settings : Settings}

/-- Whether an edit comes to a changed document that is valid but has a formula too high to be read
again. -/
def SavesUnreadable (settings : Settings) (edit : Edit α) (document : Document) : Prop :=
  ∃ a d, edit document = .ok a d ∧ d.dirty = true ∧ d.validate settings.format = .ok ()
    ∧ ¬ d.IsShallow

theorem SavesUnreadable.saves {edit : Edit α} {document : Document}
    (h : SavesUnreadable settings edit document) : Saves settings edit document := by
  obtain ⟨a, d, hedit, hdirty, hvalid, -⟩ := h
  exact ⟨a, d, hedit, hdirty, hvalid⟩

/-- An edit that fails leaves the document in use as it was. It leaves the store as it was unless it
has saved a document that cannot be read, and otherwise nothing at all has changed. -/
theorem edit_error_iff {s t : Trail (Locator HeldStore)} {e : Edit α} {error : Error}
    (h : edit settings e s = .error error t) :
    t.state.document = s.state.document
      ∧ (t.state.store.bytes = s.state.store.bytes
          ∧ t.state.store.modified = s.state.store.modified
        ↔ ¬ SavesUnreadable settings e s.state.document)
      ∧ (¬ SavesUnreadable settings e s.state.document → t = s) := by
  have hends := edit_ends settings e s
  rw [h] at hends
  cases hends with
  | refused _ hnot =>
    have hreadable : ¬ SavesUnreadable settings e s.state.document := fun h => hnot h.saves
    exact ⟨rfl, iff_of_true ⟨rfl, rfl⟩ hreadable, fun _ => rfl⟩
  | @unreadable a d log fault hedit hdirty hvalid hdeep _ =>
    have hunreadable : SavesUnreadable settings e s.state.document :=
      ⟨a, d, hedit, hdirty, hvalid, hdeep⟩
    refine ⟨rfl, iff_of_false (fun hsame => ?_) (not_not_intro hunreadable),
      fun h => absurd hunreadable h⟩
    have hlt := Dependable.lt_modified_saved d.toBytes s.state.store
    exact Int.ne_of_gt hlt hsame.2

/-- An edit that fails after a change. -/
theorem edit_error_iff_throw :
    let s : Trail (Locator HeldStore) := ⟨{ store := {}, document := {}, loadedAt := .epoch }, []⟩
    let e : Edit Unit := do
      let _ ← Edit.addOffset ⟨"Code", none⟩
      throw .noMatch
    ∃ t, edit {} e s = .error .noMatch t
      ∧ t.state.document = s.state.document
      ∧ (t.state.store.bytes = s.state.store.bytes
          ∧ t.state.store.modified = s.state.store.modified
        ↔ ¬ SavesUnreadable {} e s.state.document)
      ∧ (¬ SavesUnreadable {} e s.state.document → t = s) :=
  ⟨_, rfl, edit_error_iff rfl⟩

/-- An edit that comes to a document that cannot be read again does fail, after it was saved. -/
theorem exists_edit_eq_error {e : Edit α} {s : Trail (Locator HeldStore)}
    (h : SavesUnreadable settings e s.state.document) :
    ∃ fault t, edit settings e s = .error (.invalidDocument fault) t
      ∧ s.state.store.modified < t.state.store.modified := by
  obtain ⟨a, d, hedit, hdirty, hvalid, hdeep⟩ := h
  have hends := edit_ends settings e s
  generalize edit settings e s = result at hends ⊢
  cases hends with
  | refused _ hnot => exact absurd ⟨a, d, hedit, hdirty, hvalid⟩ hnot
  | unmarked hedit' hclean =>
    cases hedit.symm.trans hedit'
    rw [hdirty] at hclean
    cases hclean
  | saved hedit' _ _ hshallow =>
    cases hedit.symm.trans hedit'
    exact absurd hshallow hdeep
  | @unreadable a' d' _ fault _ _ _ _ _ =>
    exact ⟨fault, _, rfl, Dependable.lt_modified_saved d'.toBytes s.state.store⟩

/-- After an edit that has saved a document that cannot be read, names that are not known yet fail
as the edit did. -/
theorem getAddress_answer_of_savesUnreadable {s t : Trail (Locator HeldStore)}
    (hs : Reachable target settings HeldStore.Outside s) {e : Edit α} (he : e.Composed)
    {error : Error} (h : edit settings e s = .error error t)
    (hunreadable : SavesUnreadable settings e s.state.document) {name : String}
    (hname : s.state.addresses.get? name = none) :
    (getAddress target settings name).answer t = .error error := by
  have hcoherent := (coherent_of_reachable hs).edit he
  have hends := edit_ends settings e s
  rw [Task.final] at hcoherent
  rw [h] at hends hcoherent
  cases hends with
  | refused _ hnot => exact absurd hunreadable.saves hnot
  | unreadable fault _ _ _ _ hread =>
    rw [hcoherent.getAddress_answer hname]
    exact congrArg (· >>= _) hread

/-- A locator over an empty store is given an offset with a formula of 125 levels: the edit fails,
and the store holds another document than before. -/
theorem edit_error_after_save :
    let target : Target := ⟨⟨0x1000, 0, "1.0"⟩, ⟨fun _ _ => .ok [], fun _ _ => none, 8⟩, false⟩
    let s : Trail (Locator HeldStore) :=
      ⟨{ store := {}, document := {}, loadedAt := .epoch },
        [.store .load, .store .lastModified]⟩
    let e : Edit Nat :=
      .addOffset ⟨"Deep", some ((Formula.unary "Add" none)^[124] (.constant "0"))⟩
    Reachable target {} HeldStore.Outside s ∧ e.Composed
      ∧ ∃ error t, edit {} e s = .error error t
        ∧ t.state.store.modified ≠ s.state.store.modified := by
  intro target s e
  have hname : Document.requireName .offset [] "Deep" = .ok "Deep" := by decide
  have hformula := Formula.validate_iterate "Add" none (.constant "0") (by decide) 124
  have hunreadable : SavesUnreadable {} e s.state.document := by
    refine ⟨0, ⟨[], [⟨"Deep", some _⟩], true⟩, rfl, rfl, ?_, fun hshallow => ?_⟩
    · simp only [Document.validate, Document.validatePatterns, Document.validateOffsets, hname,
        Option.map_some, Option.getD_some, hformula, Formula.validate]
      rfl
    · have hheight := hshallow _ (List.mem_singleton_self _) _ rfl
      rw [Formula.height_iterate] at hheight
      exact absurd hheight (by decide)
  obtain ⟨fault, t, herror, hlt⟩ := exists_edit_eq_error hunreadable
  exact ⟨.opened (openStore_empty ({} : HeldStore) rfl), .addOffset _, .invalidDocument fault, t,
    herror, Int.ne_of_gt hlt⟩

end Locator

end Landmark
