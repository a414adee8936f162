import Mathlib.Tactic.Common
import Landmark.Proofs.Agreement

/-!
# What evaluations keep

A task keeps a fact of its state and its log if the fact holds again when the task has ended, be it
in failure or not. An evaluation touches the state behind the patterns by lookups alone, and looks
up no other patterns than those its formula refers to. So it keeps whatever these lookups keep and
no read of memory breaks (`Formula.evaluateAddress_keeps`).
-/

namespace Landmark

namespace Task

variable {σ τ α β : Type}

/-- What holds before a task holds after it, whether it fails or not. -/
def Keeps (I : Trail σ → Prop) (task : Task σ α) : Prop :=
  ∀ s, I s → I (task.final s)

theorem final_of_ok {task : Task σ α} {s t : Trail σ} {a : α} (h : task s = .ok a t) :
    task.final s = t := by
  simp [final, h]

theorem final_of_error {task : Task σ α} {s t : Trail σ} {e : Error} (h : task s = .error e t) :
    task.final s = t := by
  simp [final, h]

/-- What a sequence of two tasks leaves is left by the second, or by the first if that fails. -/
theorem final_bind_induction {P : Trail σ → Prop} {m : Task σ α} {k : α → Task σ β} {s : Trail σ}
    (herror : ∀ e t, m s = .error e t → P t) (hok : ∀ a t, m s = .ok a t → P ((k a).final t)) :
    P ((m >>= k).final s) := by
  rcases h : m s with ⟨a, t⟩ | ⟨e, t⟩
  · have hk := hok a t h
    unfold final at hk ⊢
    rwa [bind_ok h]
  · rw [final_of_error (bind_error h)]
    exact herror e t h

theorem bind_eq_ok {m : Task σ α} {k : α → Task σ β} {s t : Trail σ} {b : β}
    (h : (m >>= k) s = .ok b t) : ∃ a u, m s = .ok a u ∧ k a u = .ok b t := by
  rcases hm : m s with ⟨a, u⟩ | ⟨e, u⟩
  · rw [bind_ok hm] at h
    exact ⟨a, u, rfl, h⟩
  · rw [bind_error hm] at h
    cases h

theorem final_attempt (task : Task σ α) (s : Trail σ) : (attempt task).final s = task.final s := by
  unfold attempt final
  dsimp only
  rcases task s with ⟨a, t⟩ | ⟨e, t⟩ <;> rfl

theorem answer_within (part : σ → τ) (put : τ → σ → σ) (task : Task τ α) (s : Trail σ) :
    (within part put task).answer s = task.answer ⟨part s.state, s.log⟩ := by
  unfold within answer
  dsimp only
  rcases task ⟨part s.state, s.log⟩ with ⟨a, t⟩ | ⟨e, t⟩ <;> rfl

theorem final_within (part : σ → τ) (put : τ → σ → σ) (task : Task τ α) (s : Trail σ) :
    (within part put task).final s =
      ⟨put (task.final ⟨part s.state, s.log⟩).state s.state,
        (task.final ⟨part s.state, s.log⟩).log⟩ := by
  unfold within final
  dsimp only
  rcases task ⟨part s.state, s.log⟩ with ⟨a, t⟩ | ⟨e, t⟩ <;> rfl

namespace Keeps

variable {I : Trail σ → Prop}

theorem pure (a : α) : Keeps I (Pure.pure a : Task σ α) := fun _ h => h

theorem throw (e : Error) : Keeps I (MonadExcept.throw e : Task σ α) := fun _ h => h

theorem ofExcept : ∀ result : Except Error α, Keeps I (Task.ofExcept result)
  | .ok a => pure a
  | .error e => throw e

theorem record {event : Event} (h : ∀ s, I s → I ⟨s.state, event :: s.log⟩) :
    Keeps I (Task.record event) := h

theorem bind {m : Task σ α} {k : α → Task σ β} (hm : Keeps I m) (hk : ∀ a, Keeps I (k a)) :
    Keeps I (m >>= k) := by
  intro s hs
  have hfinal := hm s hs
  refine final_bind_induction (fun e t h => ?_) fun a t h => hk a t ?_
  · rwa [final_of_error h] at hfinal
  · rwa [final_of_ok h] at hfinal

theorem attempt {m : Task σ α} (h : Keeps I m) : Keeps I (Task.attempt m) := by
  intro s hs
  rw [final_attempt]
  exact h s hs

theorem within {J : Trail τ → Prop} {part : σ → τ} {put : τ → σ → σ} {m : Task τ α}
    (hpart : ∀ s, I s → J ⟨part s.state, s.log⟩)
    (hput : ∀ s t, I s → J t → I ⟨put t.state s.state, t.log⟩) (h : Keeps J m) :
    Keeps I (Task.within part put m) := by
  intro s hs
  rw [final_within]
  exact hput s _ hs (h _ (hpart s hs))

end Keeps

/-- To keep a fact is to be in accord with oneself on equal trails of which it holds. -/
theorem keeps_iff {I : Trail σ → Prop} {m : Task σ α} :
    Keeps I m ↔ Accord (fun s t => s = t ∧ I s) m m := by
  refine ⟨fun h => .of_answer_final ?_, fun h s hs => (h.final ⟨rfl, hs⟩).2⟩
  rintro s _ ⟨rfl, hs⟩
  exact ⟨rfl, rfl, h s hs⟩

end Task

open Landmark.Task (Keeps)

variable {σ α : Type} {I : Trail σ → Prop}

namespace Formula

/-- A fact of the state behind the patterns, and of the log. -/
def OfPatterns (I : Trail σ → Prop) (trail : Trail (Scene σ)) : Prop :=
  I ⟨trail.state.patterns, trail.log⟩

theorem resolve_keeps (identifier : String) :
    Keeps (OfPatterns I) (resolve (σ := σ) identifier) := by
  intro s hs
  rw [Task.final, resolve_eq]
  exact Keeps.ofExcept ((Registry.resolve identifier).run s.state.registry).1 _ hs

variable {atlas : Atlas σ} {memory : Option Memory}

/-- The lookups of some names, and reads of memory, keep a fact. -/
structure LookupsKeep (I : Trail σ → Prop) (atlas : Atlas σ) (names : List String) : Prop where
  lookup : ∀ name ∈ names, ∀ s, I s → I ((atlas name).final ⟨s.state, .lookup name :: s.log⟩)
  read : ∀ s address size, I s → I ⟨s.state, .read address size :: s.log⟩

theorem lookup_keeps {name : String} {names : List String} (h : LookupsKeep I atlas names)
    (hname : name ∈ names) : Keeps (OfPatterns I) (lookup atlas name) := by
  intro s hs
  change OfPatterns I ((Task.within Scene.patterns (fun patterns scene => { scene with patterns })
    (atlas name)).final ⟨s.state, .lookup name :: s.log⟩)
  rw [Task.final_within]
  exact h.lookup name hname ⟨s.state.patterns, s.log⟩ hs

theorem evaluate_keeps {formula : Formula} (h : LookupsKeep I atlas formula.references) :
    Keeps (OfPatterns I) (formula.evaluate atlas memory) := by
  refine Task.keeps_iff.2 (evaluate_accord memory ⟨fun identifier => ?_, fun name hname => ?_, ?_⟩)
  · exact Task.keeps_iff.1 (resolve_keeps identifier)
  · exact Task.keeps_iff.1 (lookup_keeps h hname)
  · rintro s _ address size ⟨rfl, hs⟩
    exact ⟨rfl, h.read ⟨s.state.patterns, s.log⟩ address size hs⟩

theorem evaluateAddress_keeps {formula : Formula} (h : LookupsKeep I atlas formula.references) :
    Keeps (OfPatterns I) (formula.evaluateAddress atlas memory) :=
  .bind (evaluate_keeps h) fun _ => .ofExcept _

end Formula

end Landmark
