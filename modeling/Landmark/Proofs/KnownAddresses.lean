import Mathlib.Tactic.Common
import Landmark.Proofs.Courses
import Landmark.Proofs.Transparency

/-!
# Known addresses stay

The addresses that a locator has given are touched by nothing but the next one that is given, which
is kept only if its name has none yet, and by a reset. So a name that was given an address once has
it until the next reset, through all calls and their failures, over any store and whatever becomes
of the document and of the memory (`getAddress_lasts`).
-/

namespace Landmark

open Landmark.Task (Keeps)

namespace Addresses

/-- After an insertion the name has the address that the insertion gave. -/
theorem get?_insert_self (addresses : Addresses) (name : String) (address : UInt64) :
    (addresses.insert name address).2.get? name = some (addresses.insert name address).1 := by
  unfold insert
  rcases hname : addresses.get? name with _ | known
  · simp [get?]
  · exact hname

/-- An insertion leaves the names that are known already as they are. -/
theorem get?_insert_of_known {addresses : Addresses} {name : String} {known : UInt64}
    (h : addresses.get? name = some known) (other : String) (address : UInt64) :
    (addresses.insert other address).2.get? name = some known := by
  unfold insert
  rcases hother : addresses.get? other with _ | _
  · have hne : name ≠ other := by
      rintro rfl
      rw [h] at hother
      cases hother
    rw [get?, List.lookup_cons, beq_false_of_ne hne]
    exact h
  · exact h

end Addresses

namespace Locator

variable {σ α : Type} {name : String} {address : UInt64}

/-- Whether a name was given an address that is still kept. -/
def Knows (name : String) (address : UInt64) (locator : Locator σ) : Prop :=
  locator.addresses.get? name = some address

variable (target : Target) (settings : Settings)

theorem onDocument_knows (e : Edit α) :
    Keeps (fun s : Trail (Locator σ) => s.state.Knows name address) (onDocument e) :=
  .within (J := fun _ => True) (fun _ _ => trivial) (fun _ _ h _ => h) fun _ _ => trivial

theorem evaluate_knows (formula : Formula) :
    Keeps (fun s : Trail (Locator σ) => s.state.Knows name address)
      (evaluate target settings formula) :=
  .within (J := fun _ => True) (fun _ _ => trivial) (fun _ _ h _ => h) fun _ _ => trivial

theorem remember_knows (other : String) (found : UInt64) :
    Keeps (fun s : Trail (Locator σ) => s.state.Knows name address) (remember other found) :=
  fun _ h => Addresses.get?_insert_of_known h other found

variable [Store σ]

theorem reload_knows :
    Keeps (fun s : Trail (Locator σ) => s.state.Knows name address) (reload settings) :=
  Keeps.bind (onStore_keeps (fun _ _ h => h) _) fun _ _ h => h

theorem refresh_knows :
    Keeps (fun s : Trail (Locator σ) => s.state.Knows name address) (refresh settings) :=
  refresh_keeps (fun _ _ h => h) (reload_knows settings)

theorem saveAndReload_knows :
    Keeps (fun s : Trail (Locator σ) => s.state.Knows name address) (saveAndReload settings) :=
  saveAndReload_keeps (fun _ _ h => h) (fun _ h => h) (reload_knows settings)

theorem getAddress_knows (other : String) :
    Keeps (fun s : Trail (Locator σ) => s.state.Knows name address)
      (getAddress target settings other) :=
  getAddress_keeps other (refresh_knows settings) (evaluate_knows target settings)
    (saveAndReload_knows settings) (remember_knows other)

theorem edit_knows (e : Edit α) :
    Keeps (fun s : Trail (Locator σ) => s.state.Knows name address) (edit settings e) := by
  have htry : Keeps (fun s : Trail (Locator σ) => s.state.Knows name address)
      (tryEdit settings e) := by
    refine (onDocument_knows e).bind fun a => Keeps.bind (fun _ h => h) fun locator => ?_
    dsimp only
    split_ifs
    · exact (Keeps.ofExcept _).bind fun _ => (saveAndReload_knows settings).bind fun _ => .pure a
    · exact .pure a
  refine Keeps.bind (fun _ h => h) fun locator => htry.attempt.bind fun result => ?_
  rcases result with e | a
  · exact fun _ h => h
  · exact .pure a

/-- Whether a step forgets all addresses. -/
def Move.Forgets : Move σ → Prop
  | .reset => True
  | _ => False

theorem Move.apply_knows {move : Move σ} (h : ¬ move.Forgets) {s : Trail (Locator σ)}
    (hs : s.state.Knows name address) :
    (move.apply target settings s).state.Knows name address := by
  cases move with
  | getAddress other => exact getAddress_knows target settings other s hs
  | reset => exact absurd trivial h
  | reload => exact reload_knows settings s hs
  | edit e => exact edit_knows settings e s hs
  | outside change => exact hs

variable {target settings}

/-- An address that is given is kept. -/
theorem knows_of_getAddress {s t : Trail (Locator σ)}
    (h : getAddress target settings name s = .ok address t) : t.state.Knows name address := by
  rcases hname : s.state.addresses.get? name with _ | known
  · rw [getAddress_of_unknown target settings hname] at h
    obtain ⟨_, u, -, hresolve⟩ := Task.bind_eq_ok h
    rcases hentry : u.state.document.offset? name with _ | entry
    · rw [resolve_of_offset?_eq_none target settings hentry] at hresolve
      cases hresolve
    · rw [resolve_of_offset?_eq_some target settings hentry] at hresolve
      have hremember (v : Trail (Locator σ)) (found : UInt64)
          (h : remember name found v = .ok address t) : t.state.Knows name address := by
        cases h
        exact Addresses.get?_insert_self _ _ _
      rcases hanswer : u.state.answerOf target settings name with e | found <;>
        simp only [hanswer] at hresolve
      · cases hresolve
      · split_ifs at hresolve
        · obtain ⟨_, v, -, h⟩ := Task.bind_eq_ok hresolve
          exact hremember v found h
        · exact hremember _ found hresolve
  · rw [getAddress_of_known target settings hname] at h
    cases h
    exact hname

/-- A name that was given an address gets it again, until the next reset, with no store called, no
memory read and no search made, and counts as resolvable all the while. -/
theorem getAddress_lasts {s t : Trail (Locator σ)}
    (hget : getAddress target settings name s = .ok address t) {steps : List (Target × Move σ)}
    (hsteps : ∀ step ∈ steps, ¬ step.2.Forgets) :
    let u := course settings steps t
    (∀ target : Target, getAddress target settings name u = .ok address u)
      ∧ u.state.canResolve name = true := by
  intro u
  have hknown : u.state.Knows name address :=
    course_induction (I := fun s => s.state.Knows name address) (knows_of_getAddress hget)
      fun step hstep s hs => Move.apply_knows step.1 settings (hsteps step hstep) hs
  refine ⟨fun target => getAddress_of_known target settings hknown, ?_⟩
  rw [canResolve, Addresses.contains, hknown]
  rfl

/-- The definition is removed, then the store refuses every call. -/
theorem getAddress_lasts_refused :
    let target : Target := ⟨⟨0x1000, 0, "1.0"⟩, ⟨fun _ _ => .ok [], fun _ _ => none, 8⟩, false⟩
    let document : Document := ⟨[], [⟨"Code", some (.constant "1001")⟩], false⟩
    let s : Trail (Locator FaultyStore) :=
      ⟨{ store := { inner := { bytes := document.toBytes } }, document, loadedAt := .epoch },
        [.store .load, .store .lastModified]⟩
    let steps : List (Target × Move FaultyStore) :=
      [(target, .edit (Edit.removeOffset "Code")),
        (target, .outside fun store => { store with refusals := ⟨true, true, true⟩ }),
        (target, .reload), (target, .getAddress "Data")]
    ∃ t, getAddress target {} "Code" s = .ok 0x1001 t
      ∧ (course {} steps t).state.document.offset? "Code" = none
      ∧ (getAddress target {} "Code").answer (course {} steps t) = .ok 0x1001
      ∧ (course {} steps t).state.canResolve "Code" = true := by
  intro target document s steps
  have hget := Task.eq_ofExcept (getAddress target {} "Code") s
  have hanswer : (getAddress target {} "Code").answer s = .ok 0x1001 := by decide +kernel
  rw [hanswer] at hget
  have hsteps : ∀ step ∈ steps, ¬ step.2.Forgets := by simp [steps, Move.Forgets]
  obtain ⟨hagain, hresolvable⟩ := getAddress_lasts hget hsteps
  refine ⟨_, hget, by decide +kernel, ?_, hresolvable⟩
  rw [Task.answer, hagain target]

end Locator

end Landmark
