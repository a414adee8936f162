import Mathlib.Tactic.Common
import Landmark.Proofs.Completion
import Landmark.Proofs.Displacement

/-!
# Sums of computed addresses

A formula that is the value of an `Add` node hands its address on as text, too, and the node reads
the text as an offset. So two computed addresses are not always added: of the second one the upper
half of the first 2 ^ 32 addresses counts as negative, and from the middle of the address space on
it is refused (`addComputed`). What the two formulas are and which registry it is, as long as its
`Add` is the built-in one, makes no difference to that (`Formula.evaluateAddress_add_eq`).
-/

namespace Landmark

open Landmark.Task (Accord)

variable {σ : Type}

/-- What `Add` makes of an address and a computed address on top of it. -/
def addComputed (a b : UInt64) : Except Error UInt64 := do
  let offset ← (Operand.asOffset b).mapError .malformedOperand
  return a + offset.toUInt64

theorem toUInt64_ofInt_toNat (b : UInt64) : (Int64.ofInt b.toNat).toUInt64 = b :=
  (UInt64.eq_of_toBitVec_eq rfl : _ = UInt64.ofNat b.toNat).trans UInt64.ofNat_toNat

/-- The addresses that are added as they are. -/
theorem addComputed_of_distance {a b : UInt64}
    (h : b.toNat < 2 ^ 31 ∨ 2 ^ 32 ≤ b.toNat ∧ b.toNat < 2 ^ 63) :
    addComputed a b = .ok (a + b) := by
  rw [addComputed, Operand.asOffset, if_pos h]
  exact congrArg (fun offset => Except.ok (a + offset)) (toUInt64_ofInt_toNat b)

/-- The addresses with eight digits of which the first is at least eight. -/
theorem addComputed_of_word {a b : UInt64} (h : 2 ^ 31 ≤ b.toNat ∧ b.toNat < 2 ^ 32) :
    addComputed a b = .ok (a + b - 0x100000000) := by
  have hoffset : (Int64.ofInt ((b.toNat : Int) - 2 ^ 32)).toUInt64 = b - 0x100000000 := by
    rw [Int64.ofInt_sub, Int64.toUInt64_sub, toUInt64_ofInt_toNat]
    rfl
  rw [addComputed, Operand.asOffset, if_neg (by omega), if_pos h.2, UInt64.sub_eq_add_neg,
    UInt64.add_assoc, ← UInt64.sub_eq_add_neg, ← hoffset]
  rfl

/-- The addresses that are no offset. -/
theorem addComputed_of_beyond {a b : UInt64} (h : 2 ^ 63 ≤ b.toNat) :
    addComputed a b
      = .error (.malformedOperand (.badOffset (Operand.writeAddress b) .tooLarge)) := by
  rw [addComputed, Operand.asOffset, if_neg (by omega), if_neg (by omega)]
  rfl

namespace Formula

variable {atlas : Atlas σ} {memory : Option Memory} {target value : Formula}

/-- A formula other than a constant is evaluated to the text of its address. -/
theorem evaluate_eq_map {formula : Formula} (h : ∀ text, formula ≠ .constant text) :
    formula.evaluate atlas memory
      = Operand.writeAddress <$> formula.evaluateAddress atlas memory := by
  cases formula with
  | constant text => exact absurd rfl (h text)
  | pattern name =>
    rw [evaluateAddress_pattern, evaluate, map_eq_pure_bind]
  | unary operator value operand =>
    simp [evaluateAddress, evaluate, apply, ofExcept_readTarget_writeAddress]
  | binary operator target value =>
    simp [evaluateAddress, evaluate, apply, ofExcept_readTarget_writeAddress]

/-- The operands of an `Add` node evaluated one after the other, and their addresses added. -/
def sum (atlas : Atlas σ) (memory : Option Memory) (target value : Formula) :
    Task (Scene σ) UInt64 := do
  let a ← target.evaluateAddress atlas memory
  let b ← value.evaluateAddress atlas memory
  Task.ofExcept (addComputed a b)

theorem evaluateAddress_completed (atlas : Atlas σ) (memory : Option Memory) (own : Registry)
    (formula : Formula) :
    Accord (Scene.Completed own) (formula.evaluateAddress atlas memory)
      (formula.evaluateAddress atlas memory) :=
  .bind (evaluate_accord memory (attuned_completed atlas own _)) fun _ => .ofExcept _

theorem sum_completed (atlas : Atlas σ) (memory : Option Memory) (own : Registry)
    (target value : Formula) :
    Accord (Scene.Completed own) (sum atlas memory target value) (sum atlas memory target value) :=
  .bind (evaluateAddress_completed atlas memory own target) fun _ =>
    .bind (evaluateAddress_completed atlas memory own value) fun _ => .ofExcept _

theorem executeOnce_add_computed (h : ∀ text, value ≠ .constant text) :
    Operator.add.executeOnce
        ⟨value.evaluate atlas memory, target.evaluate atlas memory, memory⟩
      = sum atlas memory target value := by
  rw [Operator.executeOnce_add, sum]
  refine congrArg _ (funext fun a => ?_)
  simp only [Deferred.once, evaluate_eq_map h, map_eq_pure_bind, bind_assoc, pure_bind,
    Setting.read, Operand.readOffset_writeAddress, Operator.ofInt_add_toInt, addComputed]
  refine congrArg _ (funext fun b => ?_)
  cases Operand.asOffset b <;> rfl

/-- An `Add` node over two formulas, of which the second is no constant, evaluates both in order and
adds their addresses. -/
theorem evaluateAddress_add_eq (h : ∀ text, value ≠ .constant text) {s : Trail (Scene σ)}
    (hs : s.state.registry.Adds) :
    ((binary "Add" target value).evaluateAddress atlas memory).answer s
      = (sum atlas memory target value).answer s := by
  obtain ⟨registry, -, hregistry, happly⟩ := apply_add
    ⟨value.evaluate atlas memory, target.evaluate atlas memory, memory⟩ hs
  rw [executeOnce_add_computed h] at happly
  -- the node may have completed the registry, which the operands cannot tell
  have hsum := sum_completed atlas memory s.state.registry target value
  let early : Trail (Scene σ) := ⟨⟨s.state.registry.withBuiltins, s.state.patterns⟩, s.log⟩
  have hown : Scene.Completed s.state.registry s early := ⟨⟨.inl rfl, rfl⟩, rfl, rfl⟩
  have hresolved : Scene.Completed s.state.registry
      ⟨⟨registry, s.state.patterns⟩, s.log⟩ early := ⟨⟨hregistry, rfl⟩, rfl, rfl⟩
  calc ((binary "Add" target value).evaluateAddress atlas memory).answer s
      = (sum atlas memory target value).answer ⟨⟨registry, s.state.patterns⟩, s.log⟩ := by
        rw [Task.answer, evaluateAddress, evaluate, happly, Task.answer]
    _ = (sum atlas memory target value).answer early := hsum.answer_eq hresolved
    _ = (sum atlas memory target value).answer s := (hsum.answer_eq hown).symm

/-- Over a registry with the built-in `Add`, a formula that adds two computed addresses comes to
their sum modulo the size of the address space if the second one is below 2 ^ 31 or from 2 ^ 32 up
to 2 ^ 63. From 2 ^ 31 up to 2 ^ 32 it has eight digits and counts for 2 ^ 32 less, and from 2 ^ 63
on it is refused as an operand. -/
theorem evaluateAddress_add_computed (h : ∀ text, value ≠ .constant text)
    {s t u : Trail (Scene σ)} (hs : s.state.registry.Adds) {a b : UInt64}
    (ha : target.evaluateAddress atlas memory s = .ok a t)
    (hb : value.evaluateAddress atlas memory t = .ok b u) :
    let answer := ((binary "Add" target value).evaluateAddress atlas memory).answer s
    (b.toNat < 2 ^ 31 ∨ 2 ^ 32 ≤ b.toNat ∧ b.toNat < 2 ^ 63 → answer = .ok (a + b))
      ∧ (2 ^ 31 ≤ b.toNat ∧ b.toNat < 2 ^ 32 → answer = .ok (a + b - 0x100000000))
      ∧ (2 ^ 63 ≤ b.toNat → answer
        = .error (.malformedOperand (.badOffset (Operand.writeAddress b) .tooLarge))) := by
  have hanswer : ((binary "Add" target value).evaluateAddress atlas memory).answer s
      = addComputed a b := by
    rw [evaluateAddress_add_eq h hs, Task.answer, sum, Task.bind_ok ha, Task.bind_ok hb]
    cases addComputed a b <;> rfl
  simp only [hanswer]
  exact ⟨addComputed_of_distance, addComputed_of_word, addComputed_of_beyond⟩

/-- A pattern at `1000` and one at `4000000000` are added. -/
theorem evaluateAddress_add_computed_far :
    let atlas : Atlas Unit := fun name => pure <| if name = "Low" then 0x1000 else 0x4000000000
    let s : Trail (Scene Unit) := ⟨⟨Registry.standard, ()⟩, []⟩
    s.state.registry.Adds
      ∧ ((binary "Add" (.pattern "Low") (.pattern "Far")).evaluateAddress atlas none).answer s
        = .ok 0x4000001000 := by
  intro atlas s
  have hlow : (pattern "Low").evaluateAddress atlas none s
      = .ok 0x1000 ⟨s.state, [.lookup "Low"]⟩ := by
    rw [evaluateAddress_pattern]
    rfl
  have hfar : (pattern "Far").evaluateAddress atlas none ⟨s.state, [.lookup "Low"]⟩
      = .ok 0x4000000000 ⟨s.state, [.lookup "Far", .lookup "Low"]⟩ := by
    rw [evaluateAddress_pattern]
    rfl
  have hadds : s.state.registry.Adds := Registry.adds_standard
  exact ⟨hadds, (evaluateAddress_add_computed (by simp) hadds hlow hfar).1 (by decide)⟩

/-- A pattern at `80000000` takes away from the one it is added to, and a pattern at
`8000000000000000` is not added at all. -/
theorem add_computed_ne_sum :
    let atlas : Atlas Unit := fun name => pure <|
      if name = "High" then 0x80000000 else if name = "Far" then 0x8000000000000000 else 0x1000
    let s : Trail (Scene Unit) := ⟨⟨Registry.standard, ()⟩, []⟩
    let address (formula : Formula) := (formula.evaluateAddress atlas none).answer s
    s.state.registry.Adds
      ∧ address (.pattern "Low") = .ok 0x1000
      ∧ address (.pattern "High") = .ok 0x80000000
      ∧ address (.pattern "Far") = .ok 0x8000000000000000
      ∧ address (.binary "Add" (.pattern "Low") (.pattern "High")) = .ok 0xFFFFFFFF80001000
      ∧ address (.binary "Add" (.pattern "Low") (.pattern "High")) ≠ .ok (0x1000 + 0x80000000)
      ∧ address (.binary "Add" (.pattern "Low") (.pattern "Far"))
        ≠ .ok (0x1000 + 0x8000000000000000) := by
  intro atlas s address
  have hdenote (formula : Formula) :
      address formula = (formula.denote atlas none).answer ⟨(), []⟩ :=
    ((evaluateAddress_follows atlas none formula).ends Registry.isBuiltin_standard).1
  simp only [hdenote]
  refine ⟨Registry.adds_standard, rfl, rfl, rfl, rfl, ?_, ?_⟩
  · intro h
    have hvalue : (0xFFFFFFFF80001000 : UInt64) = 0x1000 + 0x80000000 := Except.ok.inj h
    exact absurd hvalue (by decide)
  · intro h
    cases h

end Formula

end Landmark
