import Mathlib.Tactic.Common
import Landmark.Proofs.Operations
import Landmark.Proofs.Sessions
import Landmark.Proofs.StoredDocument

/-!
# Courses over any store

Nothing is known of the store here: each of its calls may fail, and with any error, whatever it has
done before, and others may do anything to it. The target's memory may be another one at each step.
What still holds of a locator holds of it because of what it does with the answers. A document that
is loaded is valid, and a load that fails does so with a failure of the store or because the bytes
are no document (`Locator.validate_of_load`, `Locator.load_fails`).
-/

namespace Landmark

open Landmark.Task (Keeps)

namespace Task

variable {σ τ α β : Type}

theorem bind_eq_error {m : Task σ α} {k : α → Task σ β} {s t : Trail σ} {e : Error}
    (h : (m >>= k) s = .error e t) :
    m s = .error e t ∨ ∃ a u, m s = .ok a u ∧ k a u = .error e t := by
  rcases hm : m s with ⟨a, u⟩ | ⟨e', u⟩
  · rw [bind_ok hm] at h
    exact .inr ⟨a, u, rfl, h⟩
  · rw [bind_error hm] at h
    cases h
    exact .inl rfl

theorem eq_error_of_ofExcept {result : Except Error α} {s t : Trail σ} {e : Error}
    (h : ofExcept result s = .error e t) : result = .error e ∧ t = s := by
  cases result <;> cases h
  exact ⟨rfl, rfl⟩

theorem within_eq_ok {part : σ → τ} {put : τ → σ → σ} {m : Task τ α} {s t : Trail σ} {a : α}
    (h : within part put m s = .ok a t) :
    ∃ u, m ⟨part s.state, s.log⟩ = .ok a u ∧ t = ⟨put u.state s.state, u.log⟩ := by
  unfold within at h
  rcases hm : m ⟨part s.state, s.log⟩ with ⟨a', u⟩ | ⟨e, u⟩ <;> simp only [hm] at h
  · cases h
    exact ⟨u, rfl, rfl⟩
  · cases h

theorem within_eq_error {part : σ → τ} {put : τ → σ → σ} {m : Task τ α} {s t : Trail σ} {e : Error}
    (h : within part put m s = .error e t) : ∃ u, m ⟨part s.state, s.log⟩ = .error e u := by
  unfold within at h
  rcases hm : m ⟨part s.state, s.log⟩ with ⟨a, u⟩ | ⟨e', u⟩ <;> simp only [hm] at h
  · cases h
  · cases h
    exact ⟨u, rfl⟩

end Task

namespace Store

variable {σ α : Type}

/-- Whether some call of a store fails with an error. -/
def Raises (σ : Type) [Store σ] (e : Error) : Prop :=
  ∃ store store' : σ, Store.lastModified store = .error e store'
    ∨ Store.load store = .error e store' ∨ ∃ bytes, Store.save bytes store = .error e store'

theorem eq_error_of_call {event : StoreCall} {action : EStateM Error σ α} {s t : Trail σ}
    {e : Error} (h : call event action s = .error e t) :
    ∃ store', action s.state = .error e store' := by
  rw [call_eq] at h
  rcases haction : action s.state with ⟨a, store'⟩ | ⟨e', store'⟩ <;> rw [haction] at h
  · cases h
  · cases h
    exact ⟨store', rfl⟩

end Store

namespace Locator

variable {σ α : Type}

theorem onStore_keeps {I : Locator σ → Prop}
    (hI : ∀ locator store, I locator → I { locator with store }) (task : Task σ α) :
    Keeps (fun s : Trail (Locator σ) => I s.state) (onStore task) :=
  .within (J := fun _ => True) (fun _ _ => trivial) (fun s t hs _ => hI s.state t.state hs)
    fun _ _ => trivial

variable [Store σ] {settings : Settings}

/-- What does not depend on the store, and outlasts a reload, outlasts asking whether one is due. -/
theorem refresh_keeps {I : Locator σ → Prop}
    (hI : ∀ locator store, I locator → I { locator with store })
    (hreload : Keeps (fun s : Trail (Locator σ) => I s.state) (reload settings)) :
    Keeps (fun s : Trail (Locator σ) => I s.state) (refresh settings) := by
  refine (onStore_keeps hI _).bind fun modified => Keeps.bind (fun _ h => h) fun locator => ?_
  split_ifs
  · exact hreload
  · exact .pure _

/-- And it outlasts a save, if it does not depend on the mark either. -/
theorem saveAndReload_keeps {I : Locator σ → Prop}
    (hI : ∀ locator store, I locator → I { locator with store })
    (hclean : ∀ locator, I locator → I { locator with document := locator.document.markClean })
    (hreload : Keeps (fun s : Trail (Locator σ) => I s.state) (reload settings)) :
    Keeps (fun s : Trail (Locator σ) => I s.state) (saveAndReload settings) := by
  refine Keeps.bind (fun _ h => h) fun _ => (onStore_keeps hI _).bind fun _ s hs => ?_
  exact hreload ⟨{ s.state with document := s.state.document.markClean }, s.log⟩
    (hclean s.state hs)

theorem load_fails {format : SignatureFormat} {s t : Trail σ} {e : Error}
    (h : load format s = .error e t) : Store.Raises σ e ∨ ∃ fault, e = .invalidDocument fault := by
  obtain htime | ⟨time, u, -, h⟩ := Task.bind_eq_error h
  · obtain ⟨store', hraised⟩ := Store.eq_error_of_call htime
    exact .inl ⟨s.state, store', .inl hraised⟩
  · obtain hbytes | ⟨content, v, -, h⟩ := Task.bind_eq_error h
    · obtain ⟨store', hraised⟩ := Store.eq_error_of_call hbytes
      exact .inl ⟨u.state, store', .inr (.inl hraised)⟩
    · obtain hread | ⟨document, w, -, h⟩ := Task.bind_eq_error h
      · exact .inr (Document.ofBytes_fails (Task.eq_error_of_ofExcept hread).1)
      · cases h

theorem validate_of_load {format : SignatureFormat} {s t : Trail σ} {found : Document × Instant}
    (h : load format s = .ok found t) : found.1.validate format = .ok () := by
  obtain ⟨time, u, -, h⟩ := Task.bind_eq_ok h
  obtain ⟨content, v, -, h⟩ := Task.bind_eq_ok h
  obtain ⟨document, w, hread, h⟩ := Task.bind_eq_ok h
  cases h
  exact (Document.of_ofBytes_eq_ok (Task.eq_ok_of_ofExcept hread)).1

theorem reload_fails {s t : Trail (Locator σ)} {e : Error} (h : reload settings s = .error e t) :
    Store.Raises σ e ∨ ∃ fault, e = .invalidDocument fault := by
  obtain hload | ⟨found, u, -, h⟩ := Task.bind_eq_error h
  · obtain ⟨v, hload⟩ := Task.within_eq_error hload
    exact load_fails hload
  · cases h

theorem saveAndReload_fails {s t : Trail (Locator σ)} {e : Error}
    (h : saveAndReload settings s = .error e t) :
    Store.Raises σ e ∨ ∃ fault, e = .invalidDocument fault := by
  obtain h | ⟨locator, u, -, h⟩ := Task.bind_eq_error h
  · cases h
  · obtain hsave | ⟨_, v, -, h⟩ := Task.bind_eq_error h
    · obtain ⟨w, hsave⟩ := Task.within_eq_error hsave
      obtain ⟨store', hraised⟩ := Store.eq_error_of_call hsave
      exact .inl ⟨_, store', .inr (.inr ⟨_, hraised⟩)⟩
    · exact reload_fails h

theorem refresh_fails {s t : Trail (Locator σ)} {e : Error} (h : refresh settings s = .error e t) :
    Store.Raises σ e ∨ ∃ fault, e = .invalidDocument fault := by
  obtain htime | ⟨time, u, -, h⟩ := Task.bind_eq_error h
  · obtain ⟨v, htime⟩ := Task.within_eq_error htime
    obtain ⟨store', hraised⟩ := Store.eq_error_of_call htime
    exact .inl ⟨_, store', .inl hraised⟩
  · obtain h | ⟨locator, v, -, h⟩ := Task.bind_eq_error h
    · cases h
    · split_ifs at h
      · exact reload_fails h
      · cases h

/-- What a number of steps leave, each of them taken with the target as it is then. -/
def course (settings : Settings) (steps : List (Target × Move σ)) (s : Trail (Locator σ)) :
    Trail (Locator σ) :=
  steps.foldl (fun s step => step.2.apply step.1 settings s) s

/-- What every step keeps holds after all of them. -/
theorem course_induction {I : Trail (Locator σ) → Prop} {steps : List (Target × Move σ)} :
    ∀ {s : Trail (Locator σ)}, I s →
      (∀ step ∈ steps, ∀ s, I s → I (step.2.apply step.1 settings s)) →
        I (course settings steps s) := by
  induction steps with
  | nil => exact fun hs _ => hs
  | cons step steps ih =>
    intro s hs hsteps
    rw [List.forall_mem_cons] at hsteps
    exact ih (hsteps.1 s hs) hsteps.2

end Locator

end Landmark
