import Mathlib.Tactic.Common
import Landmark.Proofs.Courses
import Landmark.Proofs.Denotation

/-!
# How evaluations fail

An evaluation over the built-in operators fails because something is not there, because a text is no
operand, or because memory cannot be read (`Error.OfEvaluation`). It never misses a memory, since a
locator has one, and it never finds that a pattern is none, since the document in use is valid
(`Document.locate_confined`). So these are all failures that a name of the document can come to
(`Locator.answerOf_fails`), unless the memory itself fails in another way.
-/

namespace Landmark

open Landmark.Task (Keeps)

variable {σ α β : Type}

/-- Whether some read of a memory fails with an error. -/
def Memory.Raises (memory : Memory) (e : Error) : Prop :=
  ∃ address size, memory.read address size = .error e

/-- The failures of evaluations. -/
inductive Error.OfEvaluation (memory : Memory) : Error → Prop
  | noMatch : OfEvaluation memory .noMatch
  | unknownOperator (identifier : String) : OfEvaluation memory (.unknownOperator identifier)
  | malformedOperand (fault : OperandFault) : OfEvaluation memory (.malformedOperand fault)
  | unresolvedPattern (name : String) : OfEvaluation memory (.unresolvedPattern name)
  | readFailed (address : UInt64) (fault : ReadFault) :
    OfEvaluation memory (.readFailed address fault)
  | raised {e : Error} : memory.Raises e → OfEvaluation memory e

namespace Task

/-- A task that keeps a fact of its state, and fails in certain ways only while that fact holds. -/
structure Confined (I : σ → Prop) (P : Error → Prop) (task : Task σ α) : Prop where
  keeps : Keeps (fun s => I s.state) task
  fails : ∀ {s t : Trail σ} {e : Error}, I s.state → task s = .error e t → P e

namespace Confined

variable {I : σ → Prop} {P : Error → Prop}

theorem ofExcept {result : Except Error α} (h : ∀ e, result = .error e → P e) :
    Confined I P (Task.ofExcept result) :=
  ⟨.ofExcept result, fun _ hfail => h _ (eq_error_of_ofExcept hfail).1⟩

theorem pure (a : α) : Confined I P (Pure.pure a : Task σ α) :=
  ⟨.pure a, fun _ hfail => nomatch hfail⟩

theorem throw {e : Error} (h : P e) : Confined I P (MonadExcept.throw e : Task σ α) :=
  ⟨.throw e, fun _ hfail => by
    cases hfail
    exact h⟩

theorem record (event : Event) : Confined I P (Task.record event) :=
  ⟨fun _ h => h, fun _ hfail => nomatch hfail⟩

theorem bind {m : Task σ α} {k : α → Task σ β} (hm : Confined I P m)
    (hk : ∀ a, Confined I P (k a)) : Confined I P (m >>= k) := by
  refine ⟨hm.keeps.bind fun a => (hk a).keeps, fun {s t e} hs h => ?_⟩
  obtain h | ⟨a, u, hok, h⟩ := bind_eq_error h
  · exact hm.fails hs h
  · have hu := hm.keeps s hs
    rw [final_of_ok hok] at hu
    exact (hk a).fails hu h

end Confined

end Task

open Landmark.Task (Confined)

variable {I : σ → Prop} {memory : Memory}

/-! ## Reads and searches -/

theorem Memory.readBytes_confined (address : UInt64) (size : Nat) :
    Confined I (Error.OfEvaluation memory) (memory.readBytes address size) :=
  .bind (.record _) fun _ => .ofExcept fun _ h => .raised ⟨address, size, h⟩

theorem Memory.readUnsigned_confined (size : Nat) (address : UInt64) :
    Confined I (Error.OfEvaluation memory) (memory.readUnsigned size address) := by
  refine .bind (memory.readBytes_confined address size) fun bytes => .ofExcept fun e h => ?_
  unfold decode at h
  split_ifs at h
  cases h
  exact .readFailed _ _

theorem LoadWidth.load_confined (address : UInt64) (width : LoadWidth) :
    Confined I (Error.OfEvaluation memory) (width.load memory address) := by
  refine .bind (.ofExcept fun e h => ?_) fun size =>
    .bind (memory.readUnsigned_confined size address) fun _ => .pure _
  cases width <;> try cases h
  unfold LoadWidth.size Memory.pointerSize at h
  split_ifs at h
  cases h
  exact .readFailed _ _

theorem Access.bytes_confined (access : Access) (span : Span) :
    Confined I (Error.OfEvaluation memory) (access.bytes memory span) := by
  unfold Access.bytes
  split_ifs
  · exact .pure _
  · rcases access with _ | _
    · rcases memory.view span.first span.length with _ | bytes
      · exact .throw (.readFailed _ _)
      · exact .pure bytes
    · refine .bind (memory.readBytes_confined _ _) fun bytes => ?_
      split_ifs
      · exact .pure bytes
      · exact .throw (.readFailed _ _)

theorem Search.findFirstInModule_confined (search : Search) (target : Target) :
    Confined I (Error.OfEvaluation target.memory) (search.findFirstInModule target) := by
  unfold Search.findFirstInModule Search.findFirst Search.findMany
  rw [if_neg Nat.one_ne_zero]
  refine .bind (.bind (Access.bytes_confined _ _) fun bytes => .bind (.record _) fun _ => .pure _)
    fun addresses => ?_
  rcases addresses with _ | ⟨address, _⟩
  · exact .throw .noMatch
  · exact .pure address

theorem Search.found_fails {search : Search} {target : Target} {e : Error}
    (h : search.found target = .error e) : e.OfEvaluation target.memory := by
  have hfail := Task.eq_ofExcept (search.findFirstInModule target) (⟨(), []⟩ : Trail Unit)
  rw [show (search.findFirstInModule target : Task Unit UInt64).answer _ = .error e from h] at hfail
  exact (search.findFirstInModule_confined (I := fun _ => True) target).fails trivial hfail

/-! ## Lookups in a valid document -/

namespace Document

/-- In a valid document each pattern is one. -/
theorem exists_signature_of_validatePatterns {format : SignatureFormat} :
    ∀ {entries : List PatternEntry} {seen : List String},
      validatePatterns format seen entries = .ok () →
        ∀ entry ∈ entries, ∃ signature, entry.signature format = .ok signature
  | [], _, _, _, hmem => nomatch hmem
  | first :: entries, seen, h, entry, hmem => by
    rw [validatePatterns] at h
    rcases hname : requireName .pattern seen first.name with fault | name <;> rw [hname] at h
    · cases h
    · rcases hsignature : first.signature format with fault | signature <;>
        simp only [hsignature, bind, Except.bind] at h
      · cases h
      · rcases List.mem_cons.1 hmem with rfl | hmem
        · exact ⟨signature, hsignature⟩
        · exact exists_signature_of_validatePatterns h entry hmem

theorem exists_signature_of_validate {format : SignatureFormat} {document : Document}
    (h : document.validate format = .ok ()) {entry : PatternEntry}
    (hentry : entry ∈ document.patterns) : ∃ signature, entry.signature format = .ok signature := by
  rw [validate] at h
  rcases hpatterns : validatePatterns format [] document.patterns with fault | _ <;>
    rw [hpatterns] at h
  · cases h
  · exact exists_signature_of_validatePatterns hpatterns entry hentry

variable {target : Target} {settings : Settings}

theorem answer_fails {document : Document} (h : document.validate settings.format = .ok ())
    {name : String} {e : Error} (hanswer : document.answer target settings name = .error e) :
    e.OfEvaluation target.memory := by
  unfold answer at hanswer
  rcases hentry : document.pattern? name with _ | entry <;> simp only [hentry] at hanswer
  · cases hanswer
    exact .unresolvedPattern name
  · obtain ⟨signature, hsignature⟩ :=
      exists_signature_of_validate h (List.mem_of_find?_eq_some hentry)
    unfold PatternEntry.answer PatternEntry.sought at hanswer
    rw [hsignature] at hanswer
    split at hanswer
    · cases hanswer
    · exact Search.found_fails hanswer

/-- A lookup leaves a valid document valid, and does not find there that a pattern is none. -/
theorem locate_confined (target : Target) (settings : Settings) (name : String) :
    Confined (fun document : Document => document.validate settings.format = .ok ())
      (Error.OfEvaluation target.memory) (locate target settings name) := by
  constructor
  · intro s hs
    obtain ⟨t, hlocate, henriched⟩ := exists_locate_eq target settings name s
    have hfinal : (locate target settings name).final s = t := by
      rw [Task.final, hlocate]
      cases s.state.answer target settings name <;> rfl
    rw [hfinal]
    exact (validate_congr henriched.meaning_eq _).trans hs
  · intro s t e hs hfail
    obtain ⟨u, hlocate, -⟩ := exists_locate_eq target settings name s
    exact answer_fails hs (Task.eq_error_of_ofExcept (hlocate.symm.trans hfail)).1

end Document

/-! ## Evaluations -/

theorem readTarget_fails {s : String} {e : Error} (h : readTarget s = .error e) :
    e.OfEvaluation memory := by
  rw [readTarget] at h
  rcases hread : Operand.readTarget s with fault | address <;> rw [hread] at h <;> cases h
  exact .malformedOperand fault

theorem Given.read_fails {setting : Setting} : ∀ {given : Given} {e : Error},
    given.read setting = .error e → e.OfEvaluation memory := by
  have hmapped {α : Type} {result : Except OperandFault α} {e : Error}
      (h : result.mapError .malformedOperand = .error e) : e.OfEvaluation memory := by
    rcases result with fault | a <;> cases h
    exact .malformedOperand fault
  intro given e h
  cases given <;> cases setting
  · exact hmapped h
  · exact hmapped h
  · exact hmapped h
  · cases h
    exact .malformedOperand _

namespace Formula

theorem operate_confined (identifier : String) {target : Task σ UInt64} {given : Task σ Given}
    (htarget : Confined I (Error.OfEvaluation memory) target)
    (hgiven : Confined I (Error.OfEvaluation memory) given) :
    Confined I (Error.OfEvaluation memory) (operate (some memory) identifier target given) := by
  unfold operate
  split_ifs
  · exact htarget.bind fun _ => hgiven.bind fun _ =>
      .bind (.ofExcept fun _ => Given.read_fails) fun _ => .pure _
  · exact htarget.bind fun address => hgiven.bind fun _ =>
      .bind (.ofExcept fun _ => Given.read_fails) fun width => width.load_confined address
  · exact .throw (.unknownOperator identifier)

theorem given_confined {P : Error → Prop} {address : Task σ UInt64} (h : Confined I P address) :
    ∀ formula : Formula, Confined I P (formula.given address)
  | .constant _ => .pure _
  | .pattern _ | .unary _ _ _ | .binary _ _ _ => h.bind fun _ => .pure _

theorem denote_confined {atlas : Atlas σ}
    (h : ∀ name, Confined I (Error.OfEvaluation memory) (atlas name)) :
    ∀ formula : Formula, Confined I (Error.OfEvaluation memory) (formula.denote atlas (some memory))
  | .constant _ => .ofExcept fun _ => readTarget_fails
  | .pattern _ => .bind (.record _) fun _ => h _
  | .unary operator _ operand => operate_confined operator (denote_confined h operand) (.pure _)
  | .binary operator target value =>
    operate_confined operator (denote_confined h target)
      (given_confined (denote_confined h value) value)

end Formula

/-- Over a valid document and the built-in operators, a name that is not defined fails for that, and
one that is defined as its evaluation does. -/
theorem Locator.answerOf_fails {target : Target} {settings : Settings} {locator : Locator σ}
    (hvalid : locator.document.validate settings.format = .ok ())
    (hbuiltin : locator.scene.registry.IsBuiltin) {name : String} {e : Error}
    (h : locator.answerOf target settings name = .error e) :
    locator.document.offset? name = none ∧ e = .unresolvedOffset name
      ∨ e.OfEvaluation target.memory := by
  unfold answerOf at h
  rcases hentry : locator.document.offset? name with _ | entry <;> simp only [hentry] at h
  · cases h
    exact .inl ⟨rfl, rfl⟩
  · right
    have hfail := Task.eq_ofExcept (evaluate target settings entry.formula) ⟨locator, []⟩
    rw [h] at hfail
    obtain ⟨t, hfail⟩ := Task.within_eq_error hfail
    obtain ⟨registry, -, hfollows⟩ := Formula.evaluateAddress_follows
      (Document.locate target settings) (some target.memory) entry.formula ⟨locator.scene, []⟩
      hbuiltin
    -- The evaluator keeps a registry besides, but it fails exactly where the meaning does.
    have hconfined := Formula.denote_confined (Document.locate_confined target settings)
      entry.formula
    rcases hdenoted : entry.formula.denote (Document.locate target settings) (some target.memory)
      ⟨locator.document, []⟩ with ⟨a, u⟩ | ⟨e', u⟩
    · cases hfail.symm.trans (hfollows.trans (congrArg (Scene.outcome registry) hdenoted))
    · cases hfail.symm.trans (hfollows.trans (congrArg (Scene.outcome registry) hdenoted))
      exact hconfined.fails hvalid hdenoted

end Landmark
