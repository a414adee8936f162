import Landmark.Proofs.Accord
import Landmark.Proofs.Registry

/-!
# Tasks that agree

Two tasks agree on a relation of their states when, started in related states, they give the same
answer or the same failure and leave related states, whatever their logs hold: they are in accord
on trails with related states. Evaluation only passes the state behind the patterns on, so it agrees
with itself on any relation that the lookups of patterns respect (`Formula.evaluateAddress_agree`),
and a registry may already have been completed with the built-in operators or not
(`Registry.respects_sameOffer`).
-/

namespace Landmark

namespace Task

variable {σ τ α β : Type}

/-- Results with the same answer, or the same failure, and related states. -/
inductive Alike (R : σ → τ → Prop) :
    EStateM.Result Error (Trail σ) α → EStateM.Result Error (Trail τ) α → Prop
  | ok (a : α) {s : Trail σ} {t : Trail τ} : R s.state t.state → Alike R (.ok a s) (.ok a t)
  | error (e : Error) {s : Trail σ} {t : Trail τ} :
    R s.state t.state → Alike R (.error e s) (.error e t)

/-- Tasks that end alike when they start in related states. -/
def Agree (R : σ → τ → Prop) (m : Task σ α) (n : Task τ α) : Prop :=
  ∀ s t, R s.state t.state → Alike R (m s) (n t)

/-- To agree is to be in accord on the states alone. -/
theorem agree_iff {R : σ → τ → Prop} {m : Task σ α} {n : Task τ α} :
    Agree R m n ↔ Accord (fun s t => R s.state t.state) m n := by
  refine forall₃_congr fun s t _ => ?_
  generalize m s = left, n t = right
  constructor <;> rintro (⟨a, h⟩ | ⟨e, h⟩)
  · exact .ok a h
  · exact .error e h
  · exact .ok a h
  · exact .error e h

namespace Agree

variable {R : σ → τ → Prop}

theorem answer_eq {m : Task σ α} {n : Task τ α} (h : Agree R m n) {s : Trail σ} {t : Trail τ}
    (hst : R s.state t.state) : m.answer s = n.answer t :=
  (agree_iff.1 h).answer_eq hst

theorem final {m : Task σ α} {n : Task τ α} (h : Agree R m n) {s : Trail σ} {t : Trail τ}
    (hst : R s.state t.state) : R (m.final s).state (n.final t).state :=
  (agree_iff.1 h).final hst

theorem pure (a : α) : Agree R (Pure.pure a) (Pure.pure a) :=
  agree_iff.2 (.pure a)

theorem throw (e : Error) : Agree R (α := α) (MonadExcept.throw e) (MonadExcept.throw e) :=
  agree_iff.2 (.throw e)

theorem ofExcept (result : Except Error α) :
    Agree R (Task.ofExcept result) (Task.ofExcept result) :=
  agree_iff.2 (.ofExcept result)

theorem record (event : Event) : Agree R (Task.record event) (Task.record event) :=
  fun _ _ h => .ok () h

theorem setState {s : σ} {t : τ} (h : R s t) : Agree R (Task.setState s) (Task.setState t) :=
  fun _ _ _ => .ok () h

theorem bind {m : Task σ α} {n : Task τ α} {k : α → Task σ β} {l : α → Task τ β}
    (h : Agree R m n) (hk : ∀ a, Agree R (k a) (l a)) : Agree R (m >>= k) (n >>= l) :=
  agree_iff.2 ((agree_iff.1 h).bind fun a => agree_iff.1 (hk a))

/-- A task may look at the whole of its state. -/
theorem getState_bind {k : σ → Task σ α} {l : τ → Task τ α}
    (h : ∀ s t, R s t → Agree R (k s) (l t)) :
    Agree R (Task.getState >>= k) (Task.getState >>= l) :=
  fun s t hst => h s.state t.state hst s t hst

theorem attempt {m : Task σ α} {n : Task τ α} (h : Agree R m n) :
    Agree R (Task.attempt m) (Task.attempt n) :=
  agree_iff.2 (agree_iff.1 h).attempt

/-- Tasks on parts agree if related states have related parts, and stay related when related parts
are put back. -/
theorem within {σ' τ' : Type} {Q : σ' → τ' → Prop} {part : σ → σ'} {part' : τ → τ'}
    {put : σ' → σ → σ} {put' : τ' → τ → τ} {m : Task σ' α} {n : Task τ' α}
    (hpart : ∀ s t, R s t → Q (part s) (part' t))
    (hput : ∀ s t p q, R s t → Q p q → R (put p s) (put' q t)) (h : Agree Q m n) :
    Agree R (Task.within part put m) (Task.within part' put' n) :=
  agree_iff.2 (.within (fun _ _ hst => hpart _ _ hst) (fun _ _ _ _ hst hq => hput _ _ _ _ hst hq)
    (agree_iff.1 h))

end Agree

end Task

open Landmark.Task (Agree)

variable {σ τ : Type} {R : σ → τ → Prop}

/-- Scenes with related registries and related states behind the patterns. -/
structure Scene.Alike (P : Registry → Registry → Prop) (R : σ → τ → Prop) (s : Scene σ)
    (t : Scene τ) : Prop where
  registry : P s.registry t.registry
  patterns : R s.patterns t.patterns

variable {P : Registry → Registry → Prop}

namespace Formula

/-- Resolving an identifier changes the registry alone, and that even if it fails. -/
theorem resolve_eq (identifier : String) (s : Trail (Scene σ)) :
    resolve identifier s
      = Task.ofExcept ((Registry.resolve identifier).run s.state.registry).1
        ⟨{ s.state with registry := ((Registry.resolve identifier).run s.state.registry).2 },
          s.log⟩ :=
  rfl

theorem resolve_agree (hP : Registry.Respects P) (identifier : String) :
    Agree (Scene.Alike P R) (resolve identifier) (resolve identifier) := by
  intro s t hst
  obtain ⟨hanswer, hregistry⟩ := hP identifier _ _ hst.registry
  rw [resolve_eq, resolve_eq, hanswer]
  exact Agree.ofExcept _ _ _ ⟨hregistry, hst.patterns⟩

variable {atlas : Atlas σ} {atlas' : Atlas τ}

theorem lookup_agree (h : ∀ name, Agree R (atlas name) (atlas' name)) (name : String) :
    Agree (Scene.Alike P R) (lookup atlas name) (lookup atlas' name) :=
  .bind (.record _) fun _ =>
    .within (fun _ _ hst => hst.patterns) (fun _ _ _ _ hst hpq => ⟨hst.registry, hpq⟩) (h name)

/-- Evaluations are attuned when their registries and their lookups respect the relations. -/
theorem Attuned.of_respects (hP : Registry.Respects P)
    (h : ∀ name, Agree R (atlas name) (atlas' name)) (names : List String) :
    Attuned (fun s t => Scene.Alike P R s.state t.state) atlas atlas' names where
  resolve identifier := Task.agree_iff.1 (resolve_agree hP identifier)
  lookup name _ := Task.agree_iff.1 (lookup_agree h name)
  reads _ _ _ _ hst := hst

theorem evaluate_agree (hP : Registry.Respects P) (memory : Option Memory)
    (h : ∀ name, Agree R (atlas name) (atlas' name)) (formula : Formula) :
    Agree (Scene.Alike P R) (formula.evaluate atlas memory) (formula.evaluate atlas' memory) :=
  Task.agree_iff.2 (evaluate_accord memory (.of_respects hP h formula.references))

theorem evaluateAddress_agree (hP : Registry.Respects P) (memory : Option Memory)
    (h : ∀ name, Agree R (atlas name) (atlas' name)) (formula : Formula) :
    Agree (Scene.Alike P R) (formula.evaluateAddress atlas memory)
      (formula.evaluateAddress atlas' memory) :=
  .bind (evaluate_agree hP memory h formula) fun _ => .ofExcept _

end Formula

end Landmark
