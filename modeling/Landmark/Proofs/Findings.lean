import Mathlib.Tactic.Common
import Landmark.Proofs.Invariance
import Landmark.Proofs.Resolution

/-!
# How findings come up

A document changes in an evaluation only where a lookup finds the module's entry without a finding
of its build, searches for it and keeps what is found. So a fact of a document and of the log holds
on through an evaluation if it does through these steps (`Locator.evaluate_keeps`).
-/

namespace Landmark

open Landmark.Task (Keeps)

section Search

variable {σ : Type} {I : Trail σ → Prop}

theorem Access.bytes_keeps (access : Access) (memory : Memory) (span : Span)
    (hread : ∀ s address size, I s → I ⟨s.state, .read address size :: s.log⟩) :
    Keeps I (access.bytes memory span) := by
  unfold Access.bytes
  split_ifs
  · exact .pure _
  · rcases access with _ | _
    · rcases memory.view span.first span.length with _ | bytes
      · exact .throw _
      · exact .pure bytes
    · refine .bind (.bind (.record fun s => hread s _ _) fun _ => .ofExcept _) fun bytes => ?_
      split_ifs
      · exact .pure bytes
      · exact .throw _

theorem Search.findFirstInModule_keeps (search : Search) (target : Target)
    (hread : ∀ s address size, I s → I ⟨s.state, .read address size :: s.log⟩)
    (hscan : ∀ s applications, I s → I ⟨s.state, .scan applications :: s.log⟩) :
    Keeps I (search.findFirstInModule target) := by
  unfold Search.findFirstInModule Search.findFirst Search.findMany
  rw [if_neg Nat.one_ne_zero]
  refine .bind (.bind (Access.bytes_keeps _ _ _ hread) fun bytes =>
    .bind (.record fun s => hscan s _) fun _ => .pure _) fun addresses => ?_
  rcases addresses with _ | ⟨address, _⟩
  · exact .throw _
  · exact .pure address

end Search

namespace PatternEntry

/-- Whether an entry has a finding of the module's build. -/
def IsSettled (image : Image) (entry : PatternEntry) : Prop :=
  ∃ finding ∈ entry.cached, finding.isCurrent image = true

theorem bind_address?_eq_none_iff {image : Image} {entry : PatternEntry} :
    (entry.cached.bind fun finding => finding.address? image) = none
      ↔ ¬ entry.IsSettled image := by
  rcases hcached : entry.cached with _ | finding <;> simp [IsSettled, Finding.address?, hcached]

end PatternEntry

namespace Document

/-- The document with another finding in the entry at an index, and marked as changed. -/
def keepFinding (document : Document) (index : Nat) (entry : PatternEntry) (finding : Finding) :
    Document :=
  { document with
    patterns := document.patterns.set index { entry with cached := some finding }
    dirty := true }

theorem patternIndex_keepFinding {document : Document} {index : Nat} {entry : PatternEntry}
    (hentry : document.patterns[index]? = some entry) (finding : Finding) (name : String) :
    (document.keepFinding index entry finding).patternIndex name = document.patternIndex name := by
  have hindex (patterns : List PatternEntry) :
      patterns.findIdx? (fun entry => Text.trim entry.name == name)
        = (patterns.map PatternEntry.name).findIdx? fun text => Text.trim text == name := by
    rw [List.findIdx?_map]
    rfl
  have hnames : (document.keepFinding index entry finding).patterns.map PatternEntry.name
      = document.patterns.map PatternEntry.name := map_set_of_getElem? hentry rfl
  rw [patternIndex, patternIndex, hindex, hindex, hnames]

theorem pattern?_keepFinding {document : Document} {index : Nat} {entry : PatternEntry}
    (hentry : document.patterns[index]? = some entry) (finding : Finding) (name : String) :
    (document.keepFinding index entry finding).pattern? name =
      if document.patternIndex name = some index then some { entry with cached := some finding }
      else document.pattern? name := by
  rw [pattern?_eq, pattern?_eq, patternIndex_keepFinding hentry]
  rcases hindex : document.patternIndex name with _ | i
  · simp
  · have hlt := (List.getElem?_eq_some_iff.1 hentry).1
    by_cases hi : i = index
    · simp [keepFinding, hi, hlt]
    · simp [keepFinding, hi, Ne.symm hi]

/-- Facts of a document and of the log that hold on through lookups of some names. -/
structure Lasting (target : Target) (settings : Settings) (I : Trail Document → Prop)
    (names : List String) : Prop where
  lookup : ∀ s name, I s → I ⟨s.state, .lookup name :: s.log⟩
  read : ∀ s address size, I s → I ⟨s.state, .read address size :: s.log⟩
  scan : ∀ s applications, I s → I ⟨s.state, .scan applications :: s.log⟩
  sought : ∀ name ∈ names, ∀ (s : Trail Document) (entry : PatternEntry),
    s.state.pattern? name = some entry → ¬ entry.IsSettled target.image →
      I s → I ⟨s.state, .sought name :: s.log⟩
  found : ∀ name ∈ names, ∀ (s : Trail Document) (index : Nat) (entry : PatternEntry)
    (address : UInt64), s.state.patternIndex name = some index →
      s.state.patterns[index]? = some entry → ¬ entry.IsSettled target.image →
        entry.sought target settings = .ok address →
          I s → I ⟨s.state.keepFinding index entry (Finding.capture address target.image),
            .located name address :: s.log⟩

variable {target : Target} {settings : Settings} {I : Trail Document → Prop} {names : List String}

theorem searchFor_keeps {name : String} (h : Lasting target settings I names) (hname : name ∈ names)
    {s : Trail Document} {index : Nat} {entry : PatternEntry}
    (hindex : s.state.patternIndex name = some index)
    (hentry : s.state.patterns[index]? = some entry) (hopen : ¬ entry.IsSettled target.image)
    (hs : I s) : I ((searchFor target settings name index entry).final s) := by
  rcases hsignature : entry.signature settings.format with fault | signature
  · have hfail : searchFor target settings name index entry s = .error (.invalidPattern fault) s :=
      Task.bind_error (by rw [hsignature]; rfl)
    rwa [Task.final_of_error hfail]
  · have hpattern : s.state.pattern? name = some entry := by
      rw [pattern?_eq, hindex, Option.bind_some, hentry]
    have hsearched := (settings.search signature).findFirstInModule_keeps target h.read h.scan
      ⟨s.state, .sought name :: s.log⟩ (h.sought name hname s entry hpattern hopen hs)
    obtain ⟨log, hsearch⟩ := (settings.search signature).exists_findFirstInModule_eq target
      ⟨s.state, .sought name :: s.log⟩
    have hsought : entry.sought target settings = (settings.search signature).found target := by
      rw [PatternEntry.sought, hsignature]
    unfold searchFor
    rw [hsignature]
    change I (Task.final ((settings.search signature).findFirstInModule target >>= _)
      ⟨s.state, .sought name :: s.log⟩)
    rcases hfound : (settings.search signature).found target with e | address <;>
      rw [hfound] at hsearch hsought
    · rw [Task.final_of_error (Task.bind_error hsearch)]
      rwa [Task.final_of_error hsearch] at hsearched
    · rw [Task.final_of_ok hsearch] at hsearched
      have hkeep := editing_setCached (s := ⟨s.state, .located name address :: log⟩) hentry
        (some (Finding.capture address target.image))
      rw [Task.final_of_ok ((Task.bind_ok hsearch).trans
        ((Task.bind_ok rfl).trans (Task.bind_ok hkeep)))]
      exact h.found name hname ⟨s.state, log⟩ index entry address hindex hentry hopen hsought
        hsearched

theorem locate_keeps {name : String} (h : Lasting target settings I names) (hname : name ∈ names) :
    Keeps I (locate target settings name) := by
  intro s hs
  have hlocate := locate_eq target settings name s
  rcases hindex : s.state.patternIndex name with _ | index <;> simp only [hindex] at hlocate
  · rwa [Task.final_of_error hlocate]
  · rcases hentry : s.state.patterns[index]? with _ | entry <;> simp only [hentry] at hlocate
    · rwa [Task.final_of_error hlocate]
    · rcases hcached : entry.cached.bind fun finding => finding.address? target.image
        with _ | address <;> simp only [hcached] at hlocate
      · rw [Task.final, hlocate]
        exact searchFor_keeps h hname hindex hentry
          (PatternEntry.bind_address?_eq_none_iff.1 hcached) hs
      · rwa [Task.final_of_ok hlocate]

end Document

namespace Locator

variable {σ : Type} {target : Target} {settings : Settings} {I : Trail Document → Prop}

/-- An evaluation keeps the facts that last through lookups of the names its formula refers to. -/
theorem evaluate_keeps {formula : Formula}
    (h : Document.Lasting target settings I formula.references) {s : Trail (Locator σ)}
    (hs : I ⟨s.state.document, s.log⟩) :
    I ⟨((evaluate target settings formula).final s).state.document,
      ((evaluate target settings formula).final s).log⟩ := by
  have hlookups : Formula.LookupsKeep I (Document.locate target settings) formula.references :=
    ⟨fun name hname s hs => Document.locate_keeps h hname _ (h.lookup s name hs), h.read⟩
  rw [evaluate, Task.final_within]
  exact Formula.evaluateAddress_keeps hlookups ⟨s.state.scene, s.log⟩ hs

end Locator

end Landmark
