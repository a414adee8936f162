import Mathlib.Tactic.Common
import Landmark.Proofs.Agreement

/-!
# Positions in a formula

A position is the path of operands that leads from the root of a formula to a part of it. Two parts
that evaluate in accord may stand for one another at any position (`Formula.replace_accord`): the
operators above see nothing of an operand but its answers. So where the address of a pattern depends
on its name alone, the text of a part may stand for the part (`Formula.evaluate_replace_constant`).
-/

namespace Landmark

open Landmark.Task (Accord)

variable {σ : Type}

namespace Formula

/-- The part of a formula at a position. -/
def part? : List Slot → Formula → Option Formula
  | [], formula => some formula
  | .target :: path, .unary _ _ operand => operand.part? path
  | .target :: path, .binary _ target _ => target.part? path
  | .setting :: path, .binary _ _ value => value.part? path
  | _ :: _, _ => none

/-- A formula with another part at a position; where it has no such position it stays as it is. -/
def replace : List Slot → Formula → Formula → Formula
  | [], _, part => part
  | .target :: path, .unary operator value operand, part =>
    .unary operator value (operand.replace path part)
  | .target :: path, .binary operator target value, part =>
    .binary operator (target.replace path part) value
  | .setting :: path, .binary operator target value, part =>
    .binary operator target (value.replace path part)
  | _ :: _, formula, _ => formula

variable {T : Trail (Scene σ) → Trail (Scene σ) → Prop} {atlas : Atlas σ}

/-- What evaluates in accord at a position makes the whole evaluate in accord. -/
theorem replace_accord (h : ∀ names, Attuned T atlas atlas names) (memory : Option Memory)
    {old part : Formula}
    (hpart : Accord T (part.evaluate atlas memory) (old.evaluate atlas memory)) :
    ∀ {formula : Formula} {path : List Slot}, formula.part? path = some old →
      Accord T ((formula.replace path part).evaluate atlas memory)
        (formula.evaluate atlas memory)
  | _, [], hold => by
    cases hold
    exact hpart
  | .unary operator _ _, .target :: _, hold =>
    apply_accord (h []) operator (replace_accord h memory hpart hold) (.pure _)
  | .binary operator _ value, .target :: _, hold =>
    apply_accord (h []) operator (replace_accord h memory hpart hold)
      (evaluate_accord memory (h value.references))
  | .binary operator target _, .setting :: _, hold =>
    apply_accord (h []) operator (evaluate_accord memory (h target.references))
      (replace_accord h memory hpart hold)

/-- Scenes whose registries come to one offer, whatever lies behind the patterns. -/
def Offering (offer : Registry) (s t : Trail (Scene σ)) : Prop :=
  Scene.Alike (fun r r' => r.SameOffer offer ∧ r'.SameOffer offer) (fun _ _ => True)
    s.state t.state

theorem attuned_offering (h : ∀ name s t, (atlas name).answer s = (atlas name).answer t)
    (offer : Registry) (names : List String) : Attuned (Offering offer) atlas atlas names := by
  refine .of_respects (Registry.respects_sameOffer offer) (fun name s t _ => ?_) names
  rw [(atlas name).eq_ofExcept s, (atlas name).eq_ofExcept t, h name s t]
  exact Task.Agree.ofExcept _ _ _ trivial

/-- A constant is in accord with a part that has once been evaluated to its text. -/
theorem constant_accord (h : ∀ name s t, (atlas name).answer s = (atlas name).answer t)
    {memory : Option Memory} {part : Formula} {text : String} {s : Trail (Scene σ)}
    (htext : (part.evaluate atlas memory).answer s = .ok text) :
    Accord (Offering s.state.registry) ((constant text).evaluate atlas memory)
      (part.evaluate atlas memory) := by
  have hself := evaluate_accord memory
    (attuned_offering h s.state.registry part.references)
  refine .of_answer_final fun u v huv => ⟨?_, ?_⟩
  · have hsv : Offering s.state.registry s v := ⟨⟨fun _ => rfl, huv.registry.2⟩, trivial⟩
    exact htext.symm.trans (hself.answer_eq hsv)
  · -- the constant leaves its scene alone, the part may bring the built-in operators in
    have hvv : Offering s.state.registry v v := ⟨⟨huv.registry.2, huv.registry.2⟩, trivial⟩
    exact ⟨⟨huv.registry.1, (hself.final hvv).registry.2⟩, trivial⟩

/-- Where the answer for a pattern depends on its name alone, a constant can stand in for any part
that evaluates to its text: the whole is evaluated to the same text or fails in the same way. -/
theorem evaluate_replace_constant
    (h : ∀ name s t, (atlas name).answer s = (atlas name).answer t) (memory : Option Memory)
    {formula part : Formula} {path : List Slot} {text : String} {s : Trail (Scene σ)}
    (hpart : formula.part? path = some part)
    (htext : (part.evaluate atlas memory).answer s = .ok text) :
    ((formula.replace path (.constant text)).evaluate atlas memory).answer s
      = (formula.evaluate atlas memory).answer s := by
  have hstart : Offering s.state.registry s s := ⟨⟨fun _ => rfl, fun _ => rfl⟩, trivial⟩
  have hwhole := replace_accord (attuned_offering h s.state.registry) memory
    (constant_accord h htext) hpart
  exact hwhole.answer_eq hstart

/-- Below an operator of the registry's own, the part brings the built-in operators in, and the
constant in its place does not. -/
theorem evaluate_replace_constant_own :
    let own : Operator := ⟨.offset, true, fun _ => .withTarget .give⟩
    let atlas : Atlas Unit := fun _ => return 0x1000
    let part : Formula := .unary "Add" (some "-8") (.pattern "Start")
    let formula : Formula := .unary "Own" none part
    let s : Trail (Scene Unit) := ⟨⟨({} : Registry).insert "Own" own, ()⟩, []⟩
    (∀ name s t, (atlas name).answer s = (atlas name).answer t)
      ∧ formula.part? [.target] = some part
      ∧ (part.evaluate atlas none).answer s = .ok "FF8"
      ∧ (formula.evaluate atlas none).answer s = .ok "FF8" := by
  intro own atlas part formula s
  have hname : ∀ name s t, (atlas name).answer s = (atlas name).answer t := fun _ _ _ => rfl
  have hpart : formula.part? [.target] = some part := rfl
  have htext : (part.evaluate atlas none).answer s = .ok "FF8" := by decide +kernel
  have hconstant : ((formula.replace [.target] (.constant "FF8")).evaluate atlas none).answer s
      = .ok "FF8" := by decide +kernel
  exact ⟨hname, hpart, htext,
    (evaluate_replace_constant hname none hpart htext).symm.trans hconstant⟩

end Formula

end Landmark
