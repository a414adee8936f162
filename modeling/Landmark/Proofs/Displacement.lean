import Mathlib.Tactic.Common
import Landmark.Proofs.Denotation

/-!
# Formulas that move a pattern

A formula of `Add` nodes with given offsets, one on top of the other above one pattern, moves the
pattern by the sum of the offsets, whatever the address of the pattern is. The sum is a matter of
the formula alone (`Formula.Moves`): the address goes through a text at each node, but comes out of
it as it went in (`Formula.evaluateAddress_of_moves`). Nothing has to be known of the operators but
that `Add` is the built-in one.
-/

namespace Landmark

variable {σ : Type}

/-! ## Registries with the built-in `Add` -/

namespace Registry

/-- The registry offers the built-in operator as `Add`. -/
def Adds (registry : Registry) : Prop :=
  registry.withBuiltins.lookup "Add" = some Operator.add

theorem Adds.of_sameOffer {r r' : Registry} (h : r.Adds) (hoffer : r'.SameOffer r) : r'.Adds :=
  (hoffer "Add").trans h

theorem adds_standard : standard.Adds := by
  rw [Adds, standard, lookup_withBuiltins, lookup_withBuiltins]
  rfl

end Registry

namespace Formula

theorem resolve_add {s : Trail (Scene σ)} (h : s.state.registry.Adds) :
    ∃ registry : Registry, registry.Adds
      ∧ (registry = s.state.registry ∨ registry = s.state.registry.withBuiltins)
      ∧ resolve "Add" s = .ok Operator.add ⟨⟨registry, s.state.patterns⟩, s.log⟩ := by
  obtain ⟨hanswer, hoffer⟩ := Registry.run_resolve_spec "Add" s.state.registry
  refine ⟨_, h.of_sameOffer hoffer, Registry.run_resolve_registry "Add" s.state.registry, ?_⟩
  rw [resolve_eq, hanswer, show _ = some Operator.add from h]
  rfl

/-- A node that resolves to `Add` writes its address as text, and reading the text gives it back. -/
theorem apply_add (supply : Supply (Scene σ)) {s : Trail (Scene σ)} (h : s.state.registry.Adds) :
    ∃ registry : Registry, registry.Adds
      ∧ (registry = s.state.registry ∨ registry = s.state.registry.withBuiltins)
      ∧ (apply "Add" supply >>= fun text => Task.ofExcept (readTarget text)) s
        = Operator.add.executeOnce supply ⟨⟨registry, s.state.patterns⟩, s.log⟩ := by
  obtain ⟨registry, hadds, hregistry, hresolve⟩ := resolve_add h
  refine ⟨registry, hadds, hregistry, ?_⟩
  simp only [apply, bind_assoc, pure_bind, ofExcept_readTarget_writeAddress, bind_pure]
  exact Task.bind_ok hresolve

/-! ## Distances -/

/-- A distance and a given offset on top of it. The text of the offset is read when the address it
is added to is known. -/
def farther (distance : Except Error UInt64) (value : String) : Except Error UInt64 := do
  let distance ← distance
  let offset ← Setting.read .offset value
  return distance + offset.toUInt64

/-- Formulas that move the address of one pattern by given offsets, with the name of the pattern and
the distance that it is moved. -/
inductive Moves : Formula → String → Except Error UInt64 → Prop
  | pattern (name : String) : Moves (.pattern name) (Text.trim name) (.ok 0)
  | unary {operand : Formula} {name : String} {distance : Except Error UInt64}
    (value : Option String) : Moves operand name distance →
      Moves (.unary "Add" value operand) name (farther distance (value.getD ""))
  | binary {target : Formula} {name : String} {distance : Except Error UInt64} (value : String) :
    Moves target name distance →
      Moves (.binary "Add" target (.constant value)) name (farther distance value)

/-- The address of a pattern, moved by a distance. -/
def moved (atlas : Atlas σ) (name : String) (distance : Except Error UInt64) : Task σ UInt64 := do
  Task.record (.lookup name)
  let address ← atlas name
  let distance ← Task.ofExcept distance
  return address + distance

variable (atlas : Atlas σ)

theorem moved_farther (name : String) (distance : Except Error UInt64) (value : String) :
    moved atlas name (farther distance value) = (do
      let address ← moved atlas name distance
      let offset ← Task.ofExcept (Setting.read .offset value)
      return UInt64.ofInt (address.toNat + offset.toInt)) := by
  unfold moved farther
  simp only [bind_assoc, Operator.ofInt_add_toInt]
  refine congrArg _ (funext fun _ => congrArg _ (funext fun address => ?_))
  rcases distance with e | distance
  · rfl
  · rcases Setting.read .offset value with e | offset
    · rfl
    · exact congrArg (pure : UInt64 → Task σ UInt64)
        (UInt64.add_assoc address distance offset.toUInt64).symm

variable {atlas} {name : String} {distance : Except Error UInt64}

theorem moved_eq_ok {a : UInt64} {s t : Trail σ} (h : moved atlas name distance s = .ok a t) :
    ∃ address d, atlas name ⟨s.state, .lookup name :: s.log⟩ = .ok address t
      ∧ distance = .ok d ∧ a = address + d := by
  obtain ⟨_, _, hrecord, h⟩ := Task.bind_eq_ok h
  cases hrecord
  obtain ⟨address, u, hatlas, h⟩ := Task.bind_eq_ok h
  rcases distance with e | d <;> cases h
  exact ⟨address, d, hatlas, rfl, rfl⟩

theorem moved_of_atlas_eq_ok {address d : UInt64} {s t : Trail σ}
    (h : atlas name ⟨s.state, .lookup name :: s.log⟩ = .ok address t) :
    moved atlas name (.ok d) s = .ok (address + d) t :=
  (Task.bind_ok rfl).trans ((Task.bind_ok h).trans rfl)

/-- One node more: `Add` is resolved, its target is what was moved so far, and the given offset is
read last. -/
theorem apply_add_of_moved {value : String} {supply : Supply (Scene σ)}
    (hsetting : supply.setting = pure value)
    (htarget : ∀ s : Trail (Scene σ), s.state.registry.Adds → ∃ registry : Registry, registry.Adds
      ∧ Deferred.once readTarget supply.target s
        = Scene.outcome registry (moved atlas name distance ⟨s.state.patterns, s.log⟩))
    (s : Trail (Scene σ)) (h : s.state.registry.Adds) : ∃ registry : Registry, registry.Adds
      ∧ (apply "Add" supply >>= fun text => Task.ofExcept (readTarget text)) s
        = Scene.outcome registry
          (moved atlas name (farther distance value) ⟨s.state.patterns, s.log⟩) := by
  obtain ⟨first, hfirst, -, happly⟩ := apply_add supply h
  obtain ⟨registry, hregistry, hmove⟩ := htarget ⟨⟨first, s.state.patterns⟩, s.log⟩ hfirst
  refine ⟨registry, hregistry, ?_⟩
  rw [happly, Operator.executeOnce_add, moved_farther]
  rcases hmoved : moved atlas name distance ⟨s.state.patterns, s.log⟩ with ⟨address, t⟩ | ⟨e, t⟩ <;>
    rw [hmoved] at hmove
  · rw [Task.bind_ok hmove, Task.bind_ok hmoved, hsetting, Deferred.once, pure_bind]
    cases Setting.read .offset value <;> rfl
  · rw [Task.bind_error hmove, Task.bind_error hmoved]
    rfl

/-- Evaluating a formula that moves a pattern looks the pattern up and moves its address. -/
theorem evaluateAddress_of_moves {formula : Formula} (h : formula.Moves name distance)
    (atlas : Atlas σ) (memory : Option Memory) (s : Trail (Scene σ))
    (hs : s.state.registry.Adds) : ∃ registry : Registry, registry.Adds
      ∧ formula.evaluateAddress atlas memory s
        = Scene.outcome registry (moved atlas name distance ⟨s.state.patterns, s.log⟩) := by
  induction h generalizing s with
  | pattern name =>
    refine ⟨s.state.registry, hs, ?_⟩
    rw [evaluateAddress_pattern, lookup, moved, Task.bind_ok (m := Task.record _) rfl,
      Task.bind_ok (m := Task.record _) rfl, Task.within]
    rcases hatlas : atlas (Text.trim name) ⟨s.state.patterns, .lookup (Text.trim name) :: s.log⟩
      with ⟨address, t⟩ | ⟨e, t⟩
    · rw [Task.bind_ok hatlas]
      change _ = Scene.outcome s.state.registry (.ok (address + 0) t)
      rw [UInt64.add_zero]
      rfl
    · rw [Task.bind_error hatlas]
      rfl
  | unary value _ ih => exact apply_add_of_moved rfl ih s hs
  | binary value _ ih => exact apply_add_of_moved rfl ih s hs

end Formula

end Landmark
