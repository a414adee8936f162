import Mathlib.Tactic.Common
import Landmark.Proofs.Agreement

/-!
# When the built-in operators join

The first identifier that is looked up in vain brings all built-in operators into the registry, deep
inside a formula and for the rest of the evaluation, even if that fails. None of this shows: over
the registry that had them from the start an evaluation gives the same answer, logs the same events
and leaves the same patterns, and the registry it leaves is the one it began with or that one
completed (`Formula.evaluate_ensureBuiltins`).
-/

namespace Landmark

open Landmark.Task (Accord)

variable {σ : Type}

/-- Two evaluations that have seen and done the same, the second over the completed registry. -/
structure Scene.Completed (own : Registry) (s t : Trail (Scene σ)) : Prop where
  registry : own.Completed s.state.registry t.state.registry
  patterns : s.state.patterns = t.state.patterns
  log : s.log = t.log

namespace Formula

variable {own : Registry}

theorem resolve_completed (identifier : String) :
    Accord (Scene.Completed (σ := σ) own) (resolve identifier) (resolve identifier) := by
  intro s t h
  obtain ⟨hanswer, hregistry⟩ := Registry.respects_completed own identifier _ _ h.registry
  rw [resolve_eq, resolve_eq, hanswer]
  exact Accord.ofExcept _ _ _ ⟨hregistry, h.patterns, h.log⟩

theorem lookup_completed (atlas : Atlas σ) (name : String) :
    Accord (Scene.Completed own) (lookup atlas name) (lookup atlas name) := by
  refine .bind (.record fun s t h => ?_) fun _ =>
    .within (Q := Eq) (fun s t h => ?_) (fun s t p q h hpq => ?_) (.refl (atlas name))
  · exact ⟨h.registry, h.patterns, congrArg (Event.lookup name :: ·) h.log⟩
  · rw [h.patterns, h.log]
  · cases hpq
    exact ⟨h.registry, rfl, rfl⟩

theorem attuned_completed (atlas : Atlas σ) (own : Registry) (names : List String) :
    Attuned (Scene.Completed own) atlas atlas names where
  resolve := resolve_completed
  lookup name _ := lookup_completed atlas name
  reads _ _ address size h :=
    ⟨h.registry, h.patterns, congrArg (Event.read address size :: ·) h.log⟩

/-- That the built-in operators join only when an identifier is looked up in vain cannot be told
from an evaluation: over the completed registry it gives the same answer, logs the same and leaves
the same patterns. What was bound stays bound to the same operator, and of the identifiers that were
not bound either none is bound afterwards, or all of the built-in operators are. -/
theorem evaluate_ensureBuiltins (atlas : Atlas σ) (memory : Option Memory) (formula : Formula)
    (s : Trail (Scene σ)) :
    let task := formula.evaluate atlas memory
    let own := s.state.registry
    let early : Trail (Scene σ) :=
      { s with state := { s.state with registry := (Registry.ensureBuiltins.run own).2 } }
    let left := (task.final s).state.registry
    task.answer s = task.answer early
      ∧ (task.final s).log = (task.final early).log
      ∧ (task.final s).state.patterns = (task.final early).state.patterns
      ∧ (∀ identifier operator, own.lookup identifier = some operator →
          left.lookup identifier = some operator)
      ∧ ((∀ identifier, own.lookup identifier = none → left.lookup identifier = none)
        ∨ ∀ identifier, own.lookup identifier = none →
          left.lookup identifier = Operator.builtins.lookup identifier) := by
  intro task own early left
  have haccord := evaluate_accord memory (attuned_completed atlas own formula.references)
  have hstart : Scene.Completed own s early := ⟨⟨.inl rfl, rfl⟩, rfl, rfl⟩
  have hend := haccord.final hstart
  refine ⟨haccord.answer_eq hstart, hend.log, hend.patterns, ?_, ?_⟩
  · intro identifier operator hbound
    obtain heq | heq : left = own ∨ left = own.withBuiltins := hend.registry.1
    · rw [heq, hbound]
    · rw [heq, Registry.lookup_withBuiltins, hbound, Option.some_or]
  · obtain heq | heq : left = own ∨ left = own.withBuiltins := hend.registry.1
    · exact .inl fun identifier hfree => by rw [heq, hfree]
    · exact .inr fun identifier hfree => by
        rw [heq, Registry.lookup_withBuiltins, hfree, Option.none_or]

end Formula

end Landmark
