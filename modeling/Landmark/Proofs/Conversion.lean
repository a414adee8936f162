import Mathlib.Tactic.Common
import Landmark.Proofs.Changes
import Landmark.Proofs.Edits
import Landmark.Proofs.Freshness
import Landmark.Proofs.Invariance

/-!
# From unary to binary

Any of the unary nodes of a formula may be turned into binary ones, at any depth, with their text
as a constant setting: the formula is as valid as before, and its evaluation is the same task
(`Formula.evaluate_convert`). What an offset comes to depends on the patterns of the document and on
what its own formula does, so converting a formula of a document changes nothing in what its names
come to (`Locator.convert_means_same`), not even when the document has been saved and loaded again
(`Locator.Coherent.getAddress_convertToBinary`).
-/

namespace Landmark

open Landmark.Task (Agree)

variable {σ τ : Type}

namespace Formula

/-- The formula with the unary nodes at the chosen positions as binary ones. -/
def convert (chosen : List Slot → Bool) : Formula → Formula
  | .unary operator value operand =>
    let formula := .unary operator value (operand.convert fun path => chosen (.target :: path))
    if chosen [] then formula.toBinary else formula
  | .binary operator target value =>
    .binary operator (target.convert fun path => chosen (.target :: path))
      (value.convert fun path => chosen (.setting :: path))
  | formula => formula

theorem height_pos (formula : Formula) : 0 < formula.height := by
  cases formula <;> simp [height]

theorem height_toBinary : ∀ formula : Formula, formula.toBinary.height = formula.height
  | .constant _ => rfl
  | .pattern _ => rfl
  | .binary _ _ _ => rfl
  | .unary _ _ operand => by
    rw [toBinary, height, height, height, Nat.max_eq_left operand.height_pos]

theorem validate_toBinary : ∀ formula : Formula, formula.toBinary.validate = formula.validate
  | .constant _ => rfl
  | .pattern _ => rfl
  | .binary _ _ _ => rfl
  | .unary operator value operand => by
    rw [toBinary, validate, validate, validate]
    cases requireOperator operator <;> cases operand.validate <;> rfl

theorem validate_convert : ∀ (formula : Formula) (chosen : List Slot → Bool),
    (formula.convert chosen).validate = formula.validate
  | .constant _, _ => rfl
  | .pattern _, _ => rfl
  | .unary operator value operand, chosen => by
    have hnode : (unary operator value
          (operand.convert fun path => chosen (.target :: path))).validate
        = (unary operator value operand).validate := by
      rw [validate, validate, validate_convert operand]
    rw [convert]
    split_ifs
    · exact (validate_toBinary _).trans hnode
    · exact hnode
  | .binary operator target value, chosen => by
    rw [convert, validate, validate, validate_convert target, validate_convert value]

section Evaluation

variable (atlas : Atlas σ) (memory : Option Memory)

-- the text of a unary node is asked for like a constant
theorem evaluate_toBinary : ∀ formula : Formula,
    formula.toBinary.evaluate atlas memory = formula.evaluate atlas memory
  | .constant _ => rfl
  | .pattern _ => rfl
  | .unary _ _ _ => rfl
  | .binary _ _ _ => rfl

theorem evaluateAddress_toBinary (formula : Formula) :
    formula.toBinary.evaluateAddress atlas memory = formula.evaluateAddress atlas memory := by
  rw [evaluateAddress, evaluateAddress, evaluate_toBinary]

theorem evaluate_convert : ∀ (formula : Formula) (chosen : List Slot → Bool),
    (formula.convert chosen).evaluate atlas memory = formula.evaluate atlas memory
  | .constant _, _ => rfl
  | .pattern _, _ => rfl
  | .unary operator value operand, chosen => by
    have hnode : (unary operator value
          (operand.convert fun path => chosen (.target :: path))).evaluate atlas memory
        = (unary operator value operand).evaluate atlas memory := by
      rw [evaluate, evaluate, evaluate_convert operand]
    rw [convert]
    split_ifs
    · exact (evaluate_toBinary atlas memory _).trans hnode
    · exact hnode
  | .binary operator target value, chosen => by
    rw [convert, evaluate, evaluate, evaluate_convert target, evaluate_convert value]

end Evaluation

end Formula

/-- What of an offset matters to a locator: its name, whether its formula is valid, and how it is
evaluated. -/
def OffsetEntry.meaning (entry : OffsetEntry) : String × Except DocumentFault Unit
    × (Atlas Document → Option Memory → Task (Scene Document) UInt64) :=
  (entry.name, (entry.operation.map Formula.validate).getD (.ok ()),
    fun atlas memory => entry.formula.evaluateAddress atlas memory)

theorem OffsetEntry.meaning_toBinary (entry : OffsetEntry) :
    { entry with operation := entry.operation.map Formula.toBinary }.meaning = entry.meaning := by
  obtain ⟨name, _ | formula⟩ := entry
  · rfl
  · refine Prod.ext rfl (Prod.ext formula.validate_toBinary ?_)
    funext atlas memory
    exact formula.evaluateAddress_toBinary atlas memory

namespace Document

variable {document document' : Document}

theorem validateOffsets_congr : ∀ {entries entries' : List OffsetEntry} (seen : List String),
    entries.map OffsetEntry.meaning = entries'.map OffsetEntry.meaning →
      validateOffsets seen entries = validateOffsets seen entries'
  | [], [], _, _ => rfl
  | [], entry :: entries, _, h => by cases h
  | entry :: entries, [], _, h => by cases h
  | entry :: entries, entry' :: entries', seen, h => by
    rw [List.map_cons, List.map_cons, List.cons.injEq] at h
    obtain ⟨hentry, hentries⟩ := h
    have hname : entry.name = entry'.name := congrArg Prod.fst hentry
    have hvalid : (entry.operation.map Formula.validate).getD (.ok ())
        = (entry'.operation.map Formula.validate).getD (.ok ()) :=
      congrArg (fun part => part.2.1) hentry
    rw [validateOffsets, validateOffsets, hname, hvalid]
    refine congrArg _ (funext fun name => ?_)
    rw [validateOffsets_congr (name :: seen) hentries]

/-- Lookups of patterns take no notice of the offsets. -/
theorem locate_agree_of_patterns (target : Target) (settings : Settings) (name : String) :
    Agree (fun d d' : Document => (d.meaning target settings).1 = (d'.meaning target settings).1)
      (locate target settings name) (locate target settings name) := by
  intro s t hst
  obtain ⟨s', heq, hs'⟩ := exists_locate_eq target settings name s
  obtain ⟨t', heq', ht'⟩ := exists_locate_eq target settings name t
  have hpatterns : ({ s.state with offsets := [] } : Document).meaning target settings
      = ({ t.state with offsets := [] } : Document).meaning target settings :=
    congrArg (·, []) hst
  have hanswer : s.state.answer target settings name = t.state.answer target settings name :=
    answer_congr hpatterns name
  rw [heq, heq', hanswer]
  refine Agree.ofExcept _ _ _ ?_
  rw [hs'.meaning_eq, ht'.meaning_eq, hst]

theorem offset?_meaning (document : Document) (name : String) :
    (document.offset? name).map OffsetEntry.meaning
      = (document.offsets.map OffsetEntry.meaning).find? fun part => Text.trim part.1 == name := by
  rw [offset?, List.find?_map]
  rfl

theorem left_convertToBinary (document : Document) (index : Nat) :
    (Edit.convertToBinary index).left document = match document.offsets[index]? with
      | none => document
      | some entry => { document with
          offsets := document.offsets.set index
            { entry with operation := entry.operation.map Formula.toBinary }
          dirty := true } := by
  rw [Edit.left, Edit.convertToBinary_eq]
  cases document.offsets[index]? <;> rfl

theorem patterns_left_convertToBinary (document : Document) (index : Nat) :
    ((Edit.convertToBinary index).left document).patterns = document.patterns := by
  rw [left_convertToBinary]
  cases document.offsets[index]? <;> rfl

theorem offsets_left_convertToBinary (document : Document) (index : Nat) :
    ((Edit.convertToBinary index).left document).offsets.map OffsetEntry.meaning
      = document.offsets.map OffsetEntry.meaning := by
  rw [left_convertToBinary]
  cases hentry : document.offsets[index]? with
  | none => rfl
  | some entry => exact map_set_of_getElem? hentry entry.meaning_toBinary

theorem isShallow_left_convertToBinary {document : Document} (h : document.IsShallow)
    (index : Nat) : ((Edit.convertToBinary index).left document).IsShallow := by
  rw [left_convertToBinary]
  cases hentry : document.offsets[index]? with
  | none => exact h
  | some entry =>
    intro entry' hmem formula' hformula'
    obtain hold | rfl := List.mem_or_eq_of_mem_set hmem
    · exact h entry' hold formula' hformula'
    · obtain ⟨formula, hformula, rfl⟩ := Option.map_eq_some_iff.1 hformula'
      rw [formula.height_toBinary]
      exact h entry (List.mem_of_getElem? hentry) formula hformula

theorem validate_of_meaning (hpatterns : document'.patterns = document.patterns)
    (hoffsets : document'.offsets.map OffsetEntry.meaning
      = document.offsets.map OffsetEntry.meaning) (format : SignatureFormat) :
    document'.validate format = document.validate format := by
  rw [validate, validate, hpatterns, validateOffsets_congr [] hoffsets]

end Document

namespace Locator

/-- What a name comes to depends on the patterns of the document and on what its offsets mean. -/
theorem answerOf_of_meaning (target : Target) (settings : Settings) (locator : Locator σ)
    {document : Document} (hpatterns : document.patterns = locator.document.patterns)
    (hoffsets : document.offsets.map OffsetEntry.meaning
      = locator.document.offsets.map OffsetEntry.meaning) (name : String) :
    ({ locator with document } : Locator σ).answerOf target settings name
      = locator.answerOf target settings name := by
  have hentry : (document.offset? name).map OffsetEntry.meaning
      = (locator.document.offset? name).map OffsetEntry.meaning := by
    rw [Document.offset?_meaning, Document.offset?_meaning, hoffsets]
  unfold answerOf
  dsimp only
  cases h : locator.document.offset? name with
  | none =>
    rw [h, Option.map_none, Option.map_eq_none_iff] at hentry
    rw [hentry]
  | some entry =>
    rw [h, Option.map_some, Option.map_eq_some_iff] at hentry
    obtain ⟨entry', h', hmeaning⟩ := hentry
    rw [h']
    have hevaluate : entry'.formula.evaluateAddress (Document.locate target settings)
        (some target.memory) = entry.formula.evaluateAddress (Document.locate target settings)
          (some target.memory) :=
      congrArg (fun part => part.2.2 (Document.locate target settings) (some target.memory))
        hmeaning
    have hagree := Formula.evaluateAddress_agree Registry.respects_eq (some target.memory)
      (Document.locate_agree_of_patterns target settings) entry.formula
    dsimp only
    rw [evaluate, evaluate, Task.answer_within, Task.answer_within, hevaluate]
    exact hagree.answer_eq ⟨rfl, congrArg (List.map (PatternEntry.meaning target settings))
      hpatterns⟩

end Locator

theorem Document.resolve_of_meaning (target : Target) (settings : Settings)
    {document document' : Document} (hpatterns : document'.patterns = document.patterns)
    (hoffsets : document'.offsets.map OffsetEntry.meaning
      = document.offsets.map OffsetEntry.meaning) (name : String) :
    document'.resolve target settings name = document.resolve target settings name :=
  Locator.answerOf_of_meaning target settings
    (⟨(), document, .epoch, {}, settings.registry⟩ : Locator Unit) hpatterns hoffsets name

namespace Locator

/-- A binary node with a constant setting is the unary node with its text: with any of its unary
nodes converted a formula is as valid as before, and its evaluation gives the same answer, asks for
the same and leaves the same. So when the formula of an offset is converted the document is as valid
as before, and every name comes to what it came to. -/
theorem convert_means_same (formula : Formula) (chosen : List Slot → Bool) (atlas : Atlas σ)
    (memory : Option Memory) (target : Target) (settings : Settings) (locator : Locator τ)
    (index : Nat) (name : String) :
    let document := (Edit.convertToBinary index).left locator.document
    (formula.convert chosen).validate = formula.validate
      ∧ (∀ s : Trail (Scene σ),
        (formula.convert chosen).evaluate atlas memory s = formula.evaluate atlas memory s)
      ∧ document.validate settings.format = locator.document.validate settings.format
      ∧ ({ locator with document } : Locator τ).answerOf target settings name
        = locator.answerOf target settings name := by
  intro document
  have hpatterns := locator.document.patterns_left_convertToBinary index
  have hoffsets := locator.document.offsets_left_convertToBinary index
  refine ⟨formula.validate_convert chosen, fun s => ?_, ?_, ?_⟩
  · rw [formula.evaluate_convert atlas memory chosen]
  · exact Document.validate_of_meaning hpatterns hoffsets settings.format
  · exact answerOf_of_meaning target settings locator hpatterns hoffsets name

section Session

open Dependable (bytes modified)

variable [Store σ] [Dependable σ] {target : Target} {settings : Settings}

/-- Where no edit from outside is unread, the locator that has converted a formula, and has saved
and loaded its document again, answers as it would have answered before. -/
theorem Coherent.getAddress_convertToBinary {s : Trail (Locator σ)}
    (h : Coherent target settings s.state) (hread : modified s.state.store ≤ s.state.loadedAt)
    (index : Nat) (name : String) :
    (Locator.getAddress target settings name).answer
        ((Locator.edit settings (Edit.convertToBinary index)).final s)
      = (Locator.getAddress target settings name).answer s := by
  obtain ⟨base, hbase, hmeaning⟩ := h.exists_base hread
  have hcoherent := h.edit (.convertToBinary index)
  have hends := edit_ends settings (Edit.convertToBinary index) s
  unfold Task.final at hcoherent ⊢
  generalize Locator.edit settings (Edit.convertToBinary index) s = result at hends hcoherent ⊢
  cases hends with
  | refused _ _ => rfl
  | unmarked hedit hclean =>
    cases Edit.Composed.eq_of_unmarked (.convertToBinary index) hedit hclean
    rfl
  | @saved _ d log hedit _ hvalid hshallow =>
    have hleft : d = (Edit.convertToBinary index).left s.state.document := by
      rw [Edit.left, hedit]
    cases hname : s.state.addresses.get? name with
    | some address =>
      have hknown (u : Trail (Locator σ)) (hu : u.state.addresses.get? name = some address) :
          (Locator.getAddress target settings name).answer u = .ok address := by
        rw [Task.answer, getAddress_of_known target settings hu]
      refine (hknown _ ?_).trans (hknown s hname).symm
      exact hname
    | none =>
      rw [hcoherent.getAddress_answer hname, h.getAddress_answer hname, Dependable.bytes_loaded,
        Dependable.bytes_saved, Document.ofBytes_toBytes hvalid hshallow, hbase]
      have hpatterns : d.markClean.patterns = s.state.document.patterns :=
        hleft ▸ s.state.document.patterns_left_convertToBinary index
      have hoffsets : d.markClean.offsets.map OffsetEntry.meaning
          = s.state.document.offsets.map OffsetEntry.meaning :=
        hleft ▸ s.state.document.offsets_left_convertToBinary index
      calc d.markClean.resolve target settings name
          _ = s.state.document.resolve target settings name :=
            Document.resolve_of_meaning target settings hpatterns hoffsets name
          _ = s.state.answerOf target settings name := (h.answerOf_eq rfl name).symm
          _ = base.resolve target settings name := h.answerOf_eq hmeaning name
  | unreadable _ hedit _ _ hdeep _ =>
    have hshallow := Document.isShallow_left_convertToBinary (h.valid hread).2 index
    rw [Edit.left, hedit] at hshallow
    exact absurd hshallow hdeep

end Session

end Locator

end Landmark
