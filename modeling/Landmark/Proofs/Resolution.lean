import Mathlib.Tactic.Common
import Landmark.Locator.Basic
import Landmark.Proofs.Lookups

/-!
# Resolving a name

An evaluation changes nothing of a locator but its registry, which goes on to offer the same, and
the findings in its document, which goes on to mean the same (`Evaluated`). So what a name comes to
(`answerOf`) depends only on what the document means and what the registry offers
(`answerOf_congr`), and a resolution answers just that, unless the findings cannot be saved
(`exists_resolve_eq`).
-/

namespace Landmark

namespace Locator

open Landmark.Task (Agree)

variable {σ τ : Type}

/-- What an evaluation may have made of a locator. -/
structure Evaluated (target : Target) (settings : Settings) (before after : Locator σ) : Prop where
  store_eq : after.store = before.store
  loadedAt_eq : after.loadedAt = before.loadedAt
  addresses_eq : after.addresses = before.addresses
  document : Document.Enriched target settings before.document after.document
  offer : after.scene.registry.SameOffer before.scene.registry

variable (target : Target) (settings : Settings)

theorem Evaluated.refl (locator : Locator σ) : Evaluated target settings locator locator :=
  ⟨rfl, rfl, rfl, ⟨rfl, .inl rfl⟩, fun _ => rfl⟩

variable {target settings}

theorem Evaluated.putScene {before after : Locator σ} {scene : Scene Document}
    (h : Evaluated target settings before after)
    (hoffer : scene.registry.SameOffer before.scene.registry)
    (hdocument : Document.Enriched target settings before.document scene.patterns) :
    Evaluated target settings before (after.putScene scene) := by
  refine ⟨h.store_eq, h.loadedAt_eq, h.addresses_eq, hdocument, ?_⟩
  have hafter := h.offer
  unfold Locator.putScene Locator.scene at *
  cases hregistry : after.registry with
  | none => simpa [hregistry] using hafter
  | some registry => exact hoffer

/-- Evaluations of a formula give the same where documents mean the same and registries offer the
same. -/
theorem evaluate_agree {before : Locator σ} {before' : Locator τ}
    (hmeaning : before.document.meaning target settings
      = before'.document.meaning target settings)
    (hoffer : before.scene.registry.SameOffer before'.scene.registry) (formula : Formula) :
    Agree
      (fun after after' =>
        Evaluated target settings before after ∧ Evaluated target settings before' after')
      (evaluate target settings formula) (evaluate target settings formula) := by
  refine .within
    (Q := Scene.Alike
      (fun r r' => r.SameOffer before'.scene.registry ∧ r'.SameOffer before'.scene.registry)
      fun d d' => Document.Enriched target settings before.document d
        ∧ Document.Enriched target settings before'.document d')
    (fun l l' h =>
      ⟨⟨fun i => (h.1.offer i).trans (hoffer i), h.2.offer⟩, h.1.document, h.2.document⟩)
    (fun l l' p q h hpq =>
      ⟨h.1.putScene ?_ hpq.patterns.1, h.2.putScene hpq.registry.2 hpq.patterns.2⟩)
    (Formula.evaluateAddress_agree (Registry.respects_sameOffer _) _
      (Document.locate_agree hmeaning) formula)
  exact fun i => (hpq.registry.1 i).trans (hoffer i).symm

variable (target settings)

theorem evaluated_final (formula : Formula) (s : Trail (Locator σ)) :
    Evaluated target settings s.state ((evaluate target settings formula).final s).state := by
  have hagree : Agree (fun after after' => Evaluated target settings s.state after
      ∧ Evaluated target settings s.state after') _ _ := evaluate_agree rfl (fun _ => rfl) formula
  exact (hagree.final ⟨.refl target settings s.state, .refl target settings s.state⟩).1

variable {target settings}

/-- What a name comes to by the document in use. -/
def answerOf (target : Target) (settings : Settings) (locator : Locator σ) (name : String) :
    Except Error UInt64 :=
  match locator.document.offset? name with
  | none => .error (.unresolvedOffset name)
  | some entry => (evaluate target settings entry.formula).answer ⟨locator, []⟩

theorem answerOf_congr {locator : Locator σ} {locator' : Locator τ}
    (hmeaning : locator.document.meaning target settings
      = locator'.document.meaning target settings)
    (hoffer : locator.scene.registry.SameOffer locator'.scene.registry) (name : String) :
    locator.answerOf target settings name = locator'.answerOf target settings name := by
  unfold answerOf
  rw [Document.offset?_congr hmeaning name]
  cases locator'.document.offset? name with
  | none => rfl
  | some entry =>
    exact (evaluate_agree hmeaning hoffer entry.formula).answer_eq
      ⟨.refl target settings locator, .refl target settings locator'⟩

/-- What a name comes to does not depend on what was asked of the outside before. -/
theorem answerOf_of_offset?_eq_some (target : Target) (settings : Settings) {name : String}
    {entry : OffsetEntry} {s : Trail (Locator σ)} (h : s.state.document.offset? name = some entry) :
    s.state.answerOf target settings name = (evaluate target settings entry.formula).answer s := by
  have hagree : Agree (fun after after' => Evaluated target settings s.state after
      ∧ Evaluated target settings s.state after') _ _ :=
    evaluate_agree rfl (fun _ => rfl) entry.formula
  rw [answerOf, h]
  exact hagree.answer_eq (s := ⟨s.state, []⟩)
    ⟨.refl target settings s.state, .refl target settings s.state⟩

theorem remember_eq (name : String) (address : UInt64) (s : Trail (Locator σ)) :
    remember name address s = .ok (s.state.addresses.insert name address).1
      { s with
        state := { s.state with addresses := (s.state.addresses.insert name address).2 } } :=
  rfl

variable [Store σ]

theorem resolve_of_offset?_eq_none (target : Target) (settings : Settings) {name : String}
    {s : Trail (Locator σ)} (h : s.state.document.offset? name = none) :
    resolve target settings name s = .error (.unresolvedOffset name) s := by
  change (match s.state.document.offset? name with
    | none => _ | some _ => _ : Task (Locator σ) UInt64) s = _
  rw [h]
  rfl

/-- A resolution evaluates first, and saves and keeps the address then. -/
theorem resolve_of_offset?_eq_some (target : Target) (settings : Settings) {name : String}
    {entry : OffsetEntry} {s : Trail (Locator σ)}
    (h : s.state.document.offset? name = some entry) :
    let t := (evaluate target settings entry.formula).final s
    resolve target settings name s = match s.state.answerOf target settings name with
      | .error e => .error e t
      | .ok address =>
        if t.state.document.dirty then
          (saveAndReload settings >>= fun _ => remember name address) t
        else remember name address t := by
  intro t
  have hanswer := answerOf_of_offset?_eq_some target settings h
  have heq := Task.eq_ofExcept (evaluate target settings entry.formula) s
  change (match s.state.document.offset? name with
    | none => _ | some _ => _ : Task (Locator σ) UInt64) s = _
  rw [h, hanswer]
  dsimp only
  cases hresult : (evaluate target settings entry.formula).answer s with
  | error e =>
    rw [hresult] at heq
    exact Task.bind_error heq
  | ok address =>
    rw [hresult] at heq
    refine (Task.bind_ok heq).trans ((Task.bind_ok rfl).trans ?_)
    dsimp only
    split_ifs <;> rfl

theorem getAddress_of_unknown (target : Target) (settings : Settings) {name : String}
    {s : Trail (Locator σ)} (h : s.state.addresses.get? name = none) :
    getAddress target settings name s
      = (refresh settings >>= fun _ => resolve target settings name) s := by
  refine (Task.bind_ok rfl).trans ?_
  simp only [h]

theorem getAddress_of_known (target : Target) (settings : Settings) {name : String}
    {address : UInt64} {s : Trail (Locator σ)} (h : s.state.addresses.get? name = some address) :
    getAddress target settings name s = .ok address s := by
  refine (Task.bind_ok rfl).trans ?_
  simp only [h]
  rfl

theorem exists_resolve_eq (target : Target) (settings : Settings) (name : String)
    (s : Trail (Locator σ)) : ∃ t : Trail (Locator σ), Evaluated target settings s.state t.state
      ∧ resolve target settings name s = match s.state.answerOf target settings name with
        | .error e => .error e t
        | .ok address =>
          if t.state.document.dirty then
            (saveAndReload settings >>= fun _ => remember name address) t
          else remember name address t := by
  rcases hentry : s.state.document.offset? name with _ | entry
  · refine ⟨s, .refl target settings s.state, ?_⟩
    rw [resolve_of_offset?_eq_none target settings hentry, answerOf, hentry]
  · exact ⟨_, evaluated_final target settings entry.formula s,
      resolve_of_offset?_eq_some target settings hentry⟩

end Locator

end Landmark
