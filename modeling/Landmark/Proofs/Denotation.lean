import Mathlib.Tactic.Common
import Landmark.Formula.Evaluation
import Landmark.Memory.Buffer
import Landmark.Proofs.OperandText
import Landmark.Proofs.Operations

/-!
# What a formula denotes

Evaluation hands every address on as text, and the operator above reads the text in its own way.
Here a formula over the built-in operators is given its address without that: text is read only
where the formula holds it, and addresses are handed on as they are, whatever an operator takes them
for (`Formula.denote`). Evaluation comes to the same, be it an address or a failure, and does the
same to the state behind the patterns and to the outside (`Formula.evaluateAddress_eq_denote`).
-/

namespace Landmark

variable {σ α β : Type}

/-! ## The denotation -/

/-- What an operator is given as its setting: a text of the formula or a computed address. -/
inductive Given
  | text (s : String)
  | address (value : UInt64)

namespace Given

/-- The setting that is meant. -/
def read : (setting : Setting) → Given → Except Error setting.Value
  | .offset, .address value => (Operand.asOffset value).mapError .malformedOperand
  | .width, .address value =>
    .error (.malformedOperand (.unknownWidth (Operand.writeAddress value)))
  | setting, .text s => setting.read s

/-- The text as which it is handed on. -/
def write : Given → String
  | .text s => s
  | .address value => Operand.writeAddress value

theorem read_write (setting : Setting) : ∀ given : Given,
    setting.read given.write = given.read setting
  | .text s => by cases setting <;> rfl
  | .address value => by
    cases setting with
    | offset => rw [write, Setting.read, Operand.readOffset_writeAddress, read]
    | width =>
      rw [write, Setting.read, LoadWidth.read_writeAddress, read]
      rfl

end Given

namespace Formula

/-- Applies a built-in operator to operands that are still to be computed. -/
def operate (memory : Option Memory) (identifier : String) (target : Task σ UInt64)
    (given : Task σ Given) : Task σ UInt64 :=
  if identifier = "Add" then do
    let address ← target
    let offset ← Task.ofExcept ((← given).read .offset)
    return UInt64.ofInt (address.toNat + offset.toInt)
  else if identifier = "Lea" then
    match memory with
    | none => throw .missingMemory
    | some memory => do
      let address ← target
      let width ← Task.ofExcept ((← given).read .width)
      width.load memory address
  else throw (.unknownOperator identifier)

/-- What a formula is as the setting of an operator, given how its address is computed. -/
def given (formula : Formula) (address : Task σ UInt64) : Task σ Given :=
  match formula with
  | .constant value => return .text value
  | _ => do return .address (← address)

/-- The address that a formula over the built-in operators stands for. -/
def denote (atlas : Atlas σ) (memory : Option Memory) : Formula → Task σ UInt64
  | .constant value => Task.ofExcept (readTarget value)
  | .pattern name => do
    Task.record (.lookup (Text.trim name))
    atlas (Text.trim name)
  | .unary operator value operand =>
    operate memory operator (denote atlas memory operand) (return .text (value.getD ""))
  | .binary operator target value =>
    operate memory operator (denote atlas memory target) (given value (denote atlas memory value))

/-- A formula other than a constant is handed on as a computed address. -/
theorem write_given {formula : Formula} (h : ∀ value, formula ≠ .constant value)
    (address : Task σ UInt64) :
    Given.write <$> formula.given address = Operand.writeAddress <$> address := by
  cases formula with
  | constant value => exact absurd rfl (h value)
  | pattern name => simp [given, Given.write]
  | unary operator value operand => simp [given, Given.write]
  | binary operator target value => simp [given, Given.write]

theorem ofExcept_readTarget_writeAddress (address : UInt64) :
    Task.ofExcept (readTarget (Operand.writeAddress address)) = (pure address : Task σ UInt64) := by
  rw [readTarget, Operand.readTarget_writeAddress]
  rfl

theorem evaluateAddress_pattern (atlas : Atlas σ) (memory : Option Memory) (name : String) :
    (Formula.pattern name).evaluateAddress atlas memory = lookup atlas (Text.trim name) := by
  simp only [evaluateAddress, evaluate, bind_assoc, pure_bind, ofExcept_readTarget_writeAddress,
    bind_pure]

/-- Reading the text that a formula is handed on as gives its address. -/
theorem given_readTarget (atlas : Atlas σ) (memory : Option Memory) (formula : Formula) :
    (do Task.ofExcept (readTarget (← Given.write <$> formula.given (formula.denote atlas memory))))
      = formula.denote atlas memory := by
  by_cases hconstant : ∃ value, formula = .constant value
  · obtain ⟨value, rfl⟩ := hconstant
    rfl
  · rw [write_given fun value heq => hconstant ⟨value, heq⟩]
    simp [ofExcept_readTarget_writeAddress]

end Formula

/-! ## Registries of the built-in operators -/

namespace Registry

/-- The registry binds identifiers of built-in operators only, and to those. -/
def IsBuiltin (registry : Registry) : Prop :=
  ∀ identifier operator, registry.lookup identifier = some operator →
    Operator.builtins.lookup identifier = some operator

theorem IsBuiltin.lookup_withBuiltins {registry : Registry} (h : registry.IsBuiltin)
    (identifier : String) :
    registry.withBuiltins.lookup identifier = Operator.builtins.lookup identifier := by
  rw [Registry.lookup_withBuiltins]
  cases hlookup : registry.lookup identifier with
  | none => exact Option.none_or
  | some operator => rw [h identifier operator hlookup, Option.some_or]

theorem IsBuiltin.of_sameOffer {r r' : Registry} (h : r.IsBuiltin) (hoffer : r'.SameOffer r) :
    r'.IsBuiltin := by
  intro identifier operator hlookup
  rw [← h.lookup_withBuiltins, ← hoffer identifier, Registry.lookup_withBuiltins, hlookup,
    Option.some_or]

theorem isBuiltin_standard : standard.IsBuiltin := by
  have hempty : ({} : Registry).IsBuiltin := by
    intro identifier operator hlookup
    cases hlookup
  exact hempty.of_sameOffer (sameOffer_withBuiltins {})

end Registry

/-! ## Evaluation and denotation -/

/-- What happened to the patterns' state alone, beside a registry. -/
def Scene.outcome (registry : Registry) :
    EStateM.Result Error (Trail σ) α → EStateM.Result Error (Trail (Scene σ)) α
  | .ok a t => .ok a ⟨⟨registry, t.state⟩, t.log⟩
  | .error e t => .error e ⟨⟨registry, t.state⟩, t.log⟩

/-- Over a registry of built-in operators, which stays one, `m` does what `n` does to the patterns'
state and to the log, and gives the same answer or the same failure. -/
def Follows (m : Task (Scene σ) α) (n : Task σ α) : Prop :=
  ∀ s : Trail (Scene σ), s.state.registry.IsBuiltin → ∃ registry : Registry,
    registry.IsBuiltin ∧ m s = Scene.outcome registry (n ⟨s.state.patterns, s.log⟩)

namespace Follows

theorem ofExcept : ∀ result : Except Error α,
    Follows (Task.ofExcept result) (Task.ofExcept result : Task σ α)
  | .ok _ => fun s h => ⟨s.state.registry, h, rfl⟩
  | .error _ => fun s h => ⟨s.state.registry, h, rfl⟩

theorem pure (a : α) : Follows (Pure.pure a) (Pure.pure a : Task σ α) :=
  ofExcept (.ok a)

theorem throw (e : Error) : Follows (MonadExcept.throw e) (MonadExcept.throw e : Task σ α) :=
  ofExcept (.error e)

theorem record (event : Event) : Follows (Task.record event) (Task.record event : Task σ Unit) :=
  fun s h => ⟨s.state.registry, h, rfl⟩

theorem bind {m : Task (Scene σ) α} {n : Task σ α} {k : α → Task (Scene σ) β} {l : α → Task σ β}
    (h : Follows m n) (hk : ∀ a, Follows (k a) (l a)) : Follows (m >>= k) (n >>= l) := by
  intro s hs
  obtain ⟨registry, hregistry, hm⟩ := h s hs
  rcases hn : n ⟨s.state.patterns, s.log⟩ with ⟨a, t⟩ | ⟨e, t⟩ <;> rw [hn] at hm
  · rw [Task.bind_ok hm, Task.bind_ok hn]
    exact hk a _ hregistry
  · rw [Task.bind_error hm, Task.bind_error hn]
    exact ⟨registry, hregistry, rfl⟩

/-- The answers, and what is left of the patterns and of the log. -/
theorem ends {m : Task (Scene σ) α} {n : Task σ α} (h : Follows m n) {s : Trail (Scene σ)}
    (hs : s.state.registry.IsBuiltin) :
    m.answer s = n.answer ⟨s.state.patterns, s.log⟩
      ∧ ⟨(m.final s).state.patterns, (m.final s).log⟩ = n.final ⟨s.state.patterns, s.log⟩ := by
  obtain ⟨registry, -, heq⟩ := h s hs
  unfold Task.answer Task.final
  rw [heq]
  cases n ⟨s.state.patterns, s.log⟩ <;> exact ⟨rfl, rfl⟩

theorem pure_bind {m : Task (Scene σ) α} {a : α} {k : α → Task (Scene σ) β} {n : Task σ β}
    (h : Follows m (Pure.pure a)) (hk : Follows (k a) n) : Follows (m >>= k) n := by
  intro s hs
  obtain ⟨registry, hregistry, hm⟩ := h s hs
  rw [Task.bind_ok hm]
  exact hk _ hregistry

theorem throw_bind {m : Task (Scene σ) α} {e : Error} {k : α → Task (Scene σ) β}
    (h : Follows m (MonadExcept.throw e)) :
    Follows (m >>= k) (MonadExcept.throw e : Task σ β) := by
  intro s hs
  obtain ⟨registry, hregistry, hm⟩ := h s hs
  rw [Task.bind_error hm]
  exact ⟨registry, hregistry, rfl⟩

theorem map {m : Task (Scene σ) α} {n : Task σ α} (h : Follows m n) (f : α → β) :
    Follows (f <$> m) (f <$> n) := by
  rw [map_eq_pure_bind, map_eq_pure_bind]
  exact h.bind fun a => .pure (f a)

theorem lookup (atlas : Atlas σ) (name : String) :
    Follows (Formula.lookup atlas name) (do Task.record (.lookup name); atlas name) := by
  refine (record _).bind fun _ s hs => ⟨s.state.registry, hs, ?_⟩
  unfold Task.within
  cases atlas name ⟨s.state.patterns, s.log⟩ <;> rfl

theorem readUnsigned (memory : Memory) (size : Nat) (address : UInt64) :
    Follows (memory.readUnsigned size address) (memory.readUnsigned size address : Task σ Nat) :=
  ((record _).bind fun _ => ofExcept _).bind fun _ => ofExcept _

theorem load (memory : Memory) (address : UInt64) (width : LoadWidth) :
    Follows (width.load memory address) (width.load memory address : Task σ UInt64) :=
  (ofExcept _).bind fun size => (readUnsigned memory size address).bind fun _ => .pure _

/-- Resolving an identifier over a registry of built-in operators. -/
theorem resolve (identifier : String) :
    Follows (Formula.resolve identifier)
      (Task.ofExcept ((Operator.builtins.lookup identifier).elim
        (.error (.unknownOperator identifier)) .ok) : Task σ Operator) := by
  intro s hs
  obtain ⟨hanswer, hoffer⟩ := Registry.run_resolve_spec identifier s.state.registry
  refine ⟨_, hs.of_sameOffer hoffer, ?_⟩
  rw [Formula.resolve_eq, hanswer, hs.lookup_withBuiltins]
  cases Operator.builtins.lookup identifier <;> rfl

end Follows

namespace Formula

variable {atlas : Atlas σ} {memory : Option Memory}

/-- A formula as the target of an operator. -/
theorem once_target_follows {source : Task (Scene σ) String} {formula : Formula}
    (h : Follows source (Given.write <$> formula.given (formula.denote atlas memory))) :
    Follows (Deferred.once readTarget source) (formula.denote atlas memory) := by
  rw [← given_readTarget]
  exact h.bind fun _ => .ofExcept _

/-- A formula or a text as the setting of an operator. -/
theorem once_setting_follows {source : Task (Scene σ) String} {given : Task σ Given}
    (h : Follows source (Given.write <$> given)) (setting : Setting) :
    Follows (Deferred.once setting.read source)
      (given >>= fun given => Task.ofExcept (given.read setting)) := by
  have hread : (given >>= fun given => Task.ofExcept (given.read setting))
      = (Given.write <$> given >>= fun text => Task.ofExcept (setting.read text)) := by
    simp only [map_eq_pure_bind, bind_assoc, pure_bind, Given.read_write]
  rw [hread]
  exact h.bind fun _ => .ofExcept _

/-- Resolving an operator and letting it work. -/
theorem executeOnce_follows (identifier : String) {supply : Supply (Scene σ)}
    {target : Task σ UInt64} {given : Task σ Given}
    (htarget : Follows (Deferred.once readTarget supply.target) target)
    (hsetting : Follows supply.setting (Given.write <$> given)) :
    Follows (resolve identifier >>= fun operator => operator.executeOnce supply)
      (operate supply.memory identifier target given) := by
  have hresolve : Follows (resolve identifier) _ := .resolve (σ := σ) identifier
  unfold operate
  split_ifs with hadd hlea
  · rw [hadd] at hresolve ⊢
    refine hresolve.pure_bind (a := Operator.add) ?_
    rw [Operator.executeOnce_add]
    refine htarget.bind fun address => ?_
    rw [← bind_assoc]
    exact (once_setting_follows hsetting .offset).bind fun offset => .pure _
  · rw [hlea] at hresolve ⊢
    refine hresolve.pure_bind (a := Operator.lea) ?_
    rw [Operator.executeOnce_lea]
    cases supply.memory with
    | none => exact .throw _
    | some memory =>
      refine htarget.bind fun address => ?_
      rw [← bind_assoc]
      exact (once_setting_follows hsetting .width).bind fun width =>
        .load memory address width
  · -- the failure comes before either operand is asked for
    have hunknown : Operator.builtins.lookup identifier = none := by
      simp [Operator.builtins, Registry.lookup_cons, hadd, hlea]
    rw [hunknown] at hresolve
    exact hresolve.throw_bind

theorem apply_follows (identifier : String) {supply : Supply (Scene σ)} {target : Task σ UInt64}
    {given : Task σ Given} (htarget : Follows (Deferred.once readTarget supply.target) target)
    (hsetting : Follows supply.setting (Given.write <$> given)) :
    Follows (apply identifier supply)
      (Operand.writeAddress <$> operate supply.memory identifier target given) := by
  have happly : apply identifier supply
      = Operand.writeAddress <$> (resolve identifier >>= fun operator =>
          operator.executeOnce supply) := by
    simp only [apply, map_eq_pure_bind, bind_assoc]
  rw [happly]
  exact (executeOnce_follows identifier htarget hsetting).map _

/-- What a formula is evaluated to is the text as which it is handed on. -/
theorem evaluate_follows (atlas : Atlas σ) (memory : Option Memory) : ∀ formula : Formula,
    Follows (formula.evaluate atlas memory)
      (Given.write <$> formula.given (formula.denote atlas memory))
  | .constant value => .pure value
  | .pattern name => by
    rw [write_given (by simp), map_eq_pure_bind]
    exact (Follows.lookup atlas (Text.trim name)).bind fun address => .pure _
  | .unary operator value operand => by
    rw [write_given (by simp)]
    exact apply_follows operator (once_target_follows (evaluate_follows atlas memory operand))
      (.pure _)
  | .binary operator target value => by
    rw [write_given (by simp)]
    exact apply_follows operator (once_target_follows (evaluate_follows atlas memory target))
      (evaluate_follows atlas memory value)

theorem evaluateAddress_follows (atlas : Atlas σ) (memory : Option Memory) (formula : Formula) :
    Follows (formula.evaluateAddress atlas memory) (formula.denote atlas memory) :=
  once_target_follows (evaluate_follows atlas memory formula)

/-- Over a registry that offers the built-in operators alone, evaluating a formula gives the address
that it denotes or fails as its denotation does, asks for the same patterns and reads the same
memory in the same order, and leaves the same state behind the patterns. -/
theorem evaluateAddress_eq_denote (atlas : Atlas σ) (memory : Option Memory) (formula : Formula)
    {s : Trail (Scene σ)} (h : s.state.registry.IsBuiltin) :
    let t : Trail σ := ⟨s.state.patterns, s.log⟩
    (formula.evaluateAddress atlas memory).answer s = (formula.denote atlas memory).answer t
      ∧ ((formula.evaluateAddress atlas memory).final s).state.patterns
        = ((formula.denote atlas memory).final t).state
      ∧ ((formula.evaluateAddress atlas memory).final s).log
        = ((formula.denote atlas memory).final t).log := by
  obtain ⟨registry, -, heq⟩ := evaluateAddress_follows atlas memory formula s h
  simp only [Task.answer, Task.final, heq]
  cases formula.denote atlas memory ⟨s.state.patterns, s.log⟩ <;> exact ⟨rfl, rfl, rfl⟩

/-- A computed `FFFFFFF0` moves back, to where the word `1234` lies. -/
theorem evaluateAddress_eq_denote_back :
    let memory := (⟨0x1000, [0x34, 0x12]⟩ : Buffer).memory
    let atlas : Atlas Unit := fun _ => return 0x1010
    let formula : Formula := .unary "Lea" (some "word")
      (.binary "Add" (.pattern " Start ") (.unary "Add" none (.constant "FFFFFFF0")))
    let s : Trail (Scene Unit) := ⟨⟨Registry.standard, ()⟩, []⟩
    s.state.registry.IsBuiltin
      ∧ (formula.evaluateAddress atlas (some memory)).answer s = .ok 0x1234 := by
  intro memory atlas formula s
  have hbuiltin : s.state.registry.IsBuiltin := Registry.isBuiltin_standard
  exact ⟨hbuiltin, (evaluateAddress_eq_denote atlas (some memory) formula hbuiltin).1.trans rfl⟩

end Formula

end Landmark
