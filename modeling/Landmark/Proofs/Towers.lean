import Mathlib.Algebra.BigOperators.Group.List.Basic
import Mathlib.Algebra.Ring.Int.Defs
import Mathlib.Data.List.Perm.Basic
import Mathlib.Tactic.Common
import Landmark.Proofs.ComputedSums

/-!
# Towers of additions

A tower is a formula with `Add` nodes on top of one another, each of which holds the text of an
offset, be it as its own setting or as a constant below it. Every storey takes the address below it
as text and hands its own on as text, and the address may wrap around on the way up and down again.
None of this shows at the top: over any registry with the built-in `Add` a tower comes to the
address of its base plus the sum of its offsets, in whatever order and by whichever nodes they are
added (`Formula.evaluateAddress_tower`).
-/

namespace Landmark

variable {σ : Type}

/-- An `Add` node of a tower, with the text of its offset. -/
inductive Storey
  /-- The text is the setting of a unary node. -/
  | unary (text : String)
  /-- The text is a constant that is the value of a binary node. -/
  | binary (text : String)
deriving DecidableEq, Repr

/-- The text of the offset. -/
def Storey.text : Storey → String
  | .unary text => text
  | .binary text => text

/-- A number is added to an address modulo the size of the address space. -/
theorem ofInt_toNat_add (address : UInt64) (n : Int) :
    UInt64.ofInt (address.toNat + n) = address + UInt64.ofInt n := by
  have hsame : UInt64.ofInt (address.toNat + (0 : Int64).toInt) = address := by
    rw [Operator.ofInt_add_toInt]
    exact UInt64.add_zero address
  rw [UInt64.ofInt_add]
  simpa using hsame

namespace Formula

/-- A formula with one storey more on top of it. -/
def raise (formula : Formula) : Storey → Formula
  | .unary text => .unary "Add" (some text) formula
  | .binary text => .binary "Add" formula (.constant text)

/-- A formula with storeys on top of it, the lowest one first. -/
def tower (base : Formula) (storeys : List Storey) : Formula :=
  storeys.foldl raise base

variable {atlas : Atlas σ} {memory : Option Memory} {s : Trail (Scene σ)}

/-- Whether the built-in operators have joined the registry already makes no difference to an
evaluation. -/
theorem answer_evaluateAddress_joined (formula : Formula) {registry : Registry}
    (h : registry = s.state.registry ∨ registry = s.state.registry.withBuiltins) :
    (formula.evaluateAddress atlas memory).answer ⟨⟨registry, s.state.patterns⟩, s.log⟩
      = (formula.evaluateAddress atlas memory).answer s := by
  have haccord := evaluateAddress_completed atlas memory s.state.registry formula
  let joined : Trail (Scene σ) := ⟨⟨s.state.registry.withBuiltins, s.state.patterns⟩, s.log⟩
  have hgiven : Scene.Completed s.state.registry ⟨⟨registry, s.state.patterns⟩, s.log⟩ joined :=
    ⟨⟨h, rfl⟩, rfl, rfl⟩
  have hown : Scene.Completed s.state.registry s joined := ⟨⟨.inl rfl, rfl⟩, rfl, rfl⟩
  exact (haccord.answer_eq hgiven).trans (haccord.answer_eq hown).symm

/-- One storey adds its offset to the address below it. -/
theorem evaluateAddress_raise (hs : s.state.registry.Adds) {formula : Formula} {address : UInt64}
    (hformula : (formula.evaluateAddress atlas memory).answer s = .ok address) {storey : Storey}
    {offset : Int64} (hoffset : Operand.readOffset storey.text = .ok offset) :
    ((formula.raise storey).evaluateAddress atlas memory).answer s
      = .ok (address + offset.toUInt64) := by
  have hraise : (formula.raise storey).evaluateAddress atlas memory
      = (apply "Add" ⟨pure storey.text, formula.evaluate atlas memory, memory⟩ >>= fun text =>
          Task.ofExcept (readTarget text)) := by
    cases storey <;> rfl
  obtain ⟨registry, -, hregistry, happly⟩ :=
    apply_add ⟨pure storey.text, formula.evaluate atlas memory, memory⟩ hs
  have htarget : (formula.evaluateAddress atlas memory).answer
      ⟨⟨registry, s.state.patterns⟩, s.log⟩ = .ok address :=
    (answer_evaluateAddress_joined formula hregistry).trans hformula
  rw [Task.answer, hraise, happly, Operator.executeOnce_add]
  rcases hbelow : formula.evaluateAddress atlas memory ⟨⟨registry, s.state.patterns⟩, s.log⟩
    with ⟨found, t⟩ | ⟨e, t⟩ <;> rw [Task.answer, hbelow] at htarget <;> cases htarget
  rw [Task.bind_ok (m := Deferred.once readTarget _) hbelow, Deferred.once, pure_bind,
    Setting.read, hoffset]
  exact congrArg Except.ok (Operator.ofInt_add_toInt address offset)

/-- The offsets of the storeys add up on the address of the base. -/
theorem evaluateAddress_tower_of_forall₂ (hs : s.state.registry.Adds) {storeys : List Storey}
    {offsets : List Int64}
    (h : List.Forall₂ (fun storey offset => Operand.readOffset storey.text = .ok offset)
      storeys offsets) :
    ∀ {base : Formula} {a : UInt64}, (base.evaluateAddress atlas memory).answer s = .ok a →
      ((base.tower storeys).evaluateAddress atlas memory).answer s
        = .ok (UInt64.ofInt (a.toNat + (offsets.map Int64.toInt).sum)) := by
  induction h with
  | nil =>
    intro base a hbase
    rw [tower, List.foldl_nil, hbase, List.map_nil, List.sum_nil, ofInt_toNat_add]
    exact congrArg Except.ok (UInt64.add_zero a).symm
  | @cons storey offset storeys offsets hoffset _ ih =>
    intro base a hbase
    have hsum : a + offset.toUInt64 + UInt64.ofInt (offsets.map Int64.toInt).sum
        = a + UInt64.ofInt ((offset :: offsets).map Int64.toInt).sum := by
      rw [List.map_cons, List.sum_cons, UInt64.ofInt_add, Operator.ofInt_toInt, UInt64.add_assoc]
    rw [ofInt_toNat_add, ← hsum, ← ofInt_toNat_add]
    exact ih (evaluateAddress_raise hs hbase hoffset)

/-- Over any registry with the built-in `Add`, a tower comes to the address of its base plus the sum
of its offsets modulo the size of the address space, whatever kinds its storeys are of and in which
order the texts of the offsets are given to them. -/
theorem evaluateAddress_tower (hs : s.state.registry.Adds) {base : Formula} {a : UInt64}
    (hbase : (base.evaluateAddress atlas memory).answer s = .ok a) {texts : List String}
    {offsets : List Int64}
    (htexts : List.Forall₂ (fun text offset => Operand.readOffset text = .ok offset) texts offsets)
    {storeys : List Storey} (hstoreys : (storeys.map Storey.text).Perm texts) :
    ((base.tower storeys).evaluateAddress atlas memory).answer s
      = .ok (UInt64.ofInt (a.toNat + (offsets.map Int64.toInt).sum)) := by
  obtain ⟨ordered, hordered, hperm⟩ := List.perm_comp_forall₂ hstoreys htexts
  have hsum : (ordered.map Int64.toInt).sum = (offsets.map Int64.toInt).sum :=
    (hperm.map Int64.toInt).sum_eq
  rw [← hsum]
  exact evaluateAddress_tower_of_forall₂ hs (List.forall₂_map_left_iff.1 hordered) hbase

/-- Three offsets on a base near the top of the address space, of which one is read as negative. -/
theorem evaluateAddress_tower_wrapping :
    let atlas : Atlas Unit := fun _ => pure 0xFFFFFFFFFFFFFFF0
    let s : Trail (Scene Unit) := ⟨⟨{}, ()⟩, []⟩
    let storeys : List Storey := [.binary "FFFFFFF0", .unary "0x20", .binary "-8"]
    s.state.registry.Adds
      ∧ (((pattern "Top").tower storeys).evaluateAddress atlas none).answer s
        = .ok 0xFFFFFFFFFFFFFFF8 := by
  intro atlas s storeys
  have hadds : s.state.registry.Adds := by
    rw [Registry.Adds, Registry.lookup_withBuiltins]
    rfl
  have hbase : ((pattern "Top").evaluateAddress atlas none).answer s = .ok 0xFFFFFFFFFFFFFFF0 := by
    rw [evaluateAddress_pattern]
    rfl
  have htexts : List.Forall₂ (fun text offset => Operand.readOffset text = .ok offset)
      ["0x20", "-8", "FFFFFFF0"] [0x20, -8, -0x10] :=
    .cons (by decide +kernel) (.cons (by decide +kernel) (.cons (by decide +kernel) .nil))
  exact ⟨hadds, evaluateAddress_tower hadds hbase htexts (by decide)⟩

end Formula

end Landmark
