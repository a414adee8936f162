import Mathlib.Tactic.Common
import Landmark.Proofs.Changes

/-!
# Refused and accepted changes

The nine changes of a document are four kinds of changes of a list of entries, each for patterns or
offsets: an entry is added, put in another one's place, taken out by its name, or updated where it
stands. A change that is refused, or that finds nothing to take out, leaves the document as it was,
mark and all; any other one marks it and alters its list at one place only
(`Edit.Change.edit_alters_one`).
-/

namespace Landmark

/-- The entries of a kind. -/
abbrev EntryKind.Entry : EntryKind → Type
  | .pattern => PatternEntry
  | .offset => OffsetEntry

/-- The name of an entry as it is written. -/
def EntryKind.name : (kind : EntryKind) → kind.Entry → String
  | .pattern => PatternEntry.name
  | .offset => OffsetEntry.name

/-- The name under which an entry is found. -/
def EntryKind.key (kind : EntryKind) (entry : kind.Entry) : String :=
  Text.trim (kind.name entry)

namespace Document

/-- The entries of a kind that a document has. -/
def entries (document : Document) : (kind : EntryKind) → List kind.Entry
  | .pattern => document.patterns
  | .offset => document.offsets

/-- The second document is marked as changed and is the first one but for one place among the
entries of a kind, where `new` stands instead of `old`. -/
structure AlteredAt (kind : EntryKind) (place : Nat) (old new : Option kind.Entry)
    (document document' : Document) : Prop where
  marked : document'.dirty = true
  entries : SplicedAt place old new (document.entries kind) (document'.entries kind)
  others : ∀ other ≠ kind, document'.entries other = document.entries other

/-- The document with other entries of a kind, marked as changed. -/
def withEntries (document : Document) : (kind : EntryKind) → List kind.Entry → Document
  | .pattern, patterns => { document with patterns, dirty := true }
  | .offset, offsets => { document with offsets, dirty := true }

theorem alteredAt_withEntries {document : Document} {kind : EntryKind} {place : Nat}
    {old new : Option kind.Entry} {entries : List kind.Entry}
    (h : SplicedAt place old new (document.entries kind) entries) :
    AlteredAt kind place old new document (document.withEntries kind entries) := by
  cases kind with
  | pattern =>
    refine ⟨rfl, h, fun other hother => ?_⟩
    cases other with
    | pattern => exact absurd rfl hother
    | offset => rfl
  | offset =>
    refine ⟨rfl, h, fun other hother => ?_⟩
    cases other with
    | pattern => rfl
    | offset => exact absurd rfl hother

end Document

/-- Whether the first entry of a name stands at a place. -/
def EntryKind.IsFirst (kind : EntryKind) (entries : List kind.Entry) (name : String)
    (place : Nat) : Prop :=
  (∃ entry, entries[place]? = some entry ∧ kind.key entry = name)
    ∧ ∀ before < place, ∀ entry, entries[before]? = some entry → kind.key entry ≠ name

namespace EntryKind

variable (kind : EntryKind) {entries : List kind.Entry} {name : String}

theorem findIdx?_eq_none_iff : (entries.findIdx? fun entry => kind.key entry == name) = none
    ↔ ∀ entry ∈ entries, kind.key entry ≠ name := by
  simp [List.findIdx?_eq_none_iff]

theorem findIdx?_eq_some_iff {place : Nat} :
    (entries.findIdx? fun entry => kind.key entry == name) = some place
      ↔ kind.IsFirst entries name place := by
  simp only [List.findIdx?_eq_some_iff_getElem, IsFirst, List.getElem?_eq_some_iff, beq_iff_eq]
  constructor
  · rintro ⟨hlt, hname, hbefore⟩
    refine ⟨⟨_, ⟨hlt, rfl⟩, hname⟩, ?_⟩
    rintro before hplace _ ⟨-, rfl⟩
    exact hbefore before hplace
  · rintro ⟨⟨_, ⟨hlt, rfl⟩, hname⟩, hbefore⟩
    exact ⟨hlt, hname, fun before hplace => hbefore before hplace _ ⟨Nat.lt_trans hplace hlt, rfl⟩⟩

end EntryKind

namespace Edit

/-- A change of the entries of a kind, with what it answers when it goes through. -/
inductive EntryChange (kind : EntryKind) : (answer : Type) → Type 1
  | add (entry : kind.Entry) : EntryChange kind Nat
  | replace (index : Nat) (entry : kind.Entry) : EntryChange kind kind.Entry
  | remove (name : String) : EntryChange kind (Option kind.Entry)
  | update (index : Nat) (f : kind.Entry → kind.Entry) : EntryChange kind Unit

namespace EntryChange

variable {kind : EntryKind}

/-- The answer of a change that goes through, the place it is about, the entry that was there and
the one that is put there. -/
inductive Makes (entries : List kind.Entry) : {answer : Type} → EntryChange kind answer → answer →
    (place : Nat) → (old new : Option kind.Entry) → Prop
  | add {entry : kind.Entry} (h : ∀ other ∈ entries, kind.key other ≠ kind.key entry) :
    Makes entries (.add entry) entries.length entries.length none (some entry)
  | replace {index : Nat} {entry old : kind.Entry} (hold : entries[index]? = some old)
    (h : ∀ place, kind.IsFirst entries (kind.key entry) place → place = index) :
    Makes entries (.replace index entry) old index (some old) (some entry)
  | remove {name : String} {place : Nat} {old : kind.Entry} (hold : entries[place]? = some old)
    (h : kind.IsFirst entries name place) :
    Makes entries (.remove name) (some old) place (some old) none
  | update {index : Nat} {f : kind.Entry → kind.Entry} {old : kind.Entry}
    (hold : entries[index]? = some old) :
    Makes entries (.update index f) () index (some old) (some (f old))

/-- The answer of a change that finds nothing to do. -/
inductive Misses (entries : List kind.Entry) :
    {answer : Type} → EntryChange kind answer → answer → Prop
  | remove {name : String} (h : ∀ entry ∈ entries, kind.key entry ≠ name) :
    Misses entries (.remove name) none

/-- Why a change is refused. -/
inductive Refused (entries : List kind.Entry) :
    {answer : Type} → EntryChange kind answer → DocumentFault → Prop
  | add {entry other : kind.Entry} (hother : other ∈ entries)
    (hkey : kind.key other = kind.key entry) :
    Refused entries (.add entry) (.duplicateName kind (kind.name entry))
  | replace {index place : Nat} {entry : kind.Entry}
    (h : kind.IsFirst entries (kind.key entry) place) (hplace : place ≠ index) :
    Refused entries (.replace index entry) (.duplicateName kind (kind.name entry))
  | replaceOutside {index : Nat} {entry : kind.Entry} (h : entries.length ≤ index) :
    Refused entries (.replace index entry) (.indexOutside kind index)
  | updateOutside {index : Nat} {f : kind.Entry → kind.Entry} (h : entries.length ≤ index) :
    Refused entries (.update index f) (.indexOutside kind index)

variable {entries : List kind.Entry} {entry old : kind.Entry} {index : Nat}

theorem Refused.add_of_isSome
    (h : (entries.findIdx? fun other => kind.key other == kind.key entry).isSome) :
    Refused entries (.add entry) (.duplicateName kind (kind.name entry)) := by
  obtain ⟨place, hplace⟩ := Option.isSome_iff_exists.1 h
  obtain ⟨⟨other, hother, hkey⟩, -⟩ := kind.findIdx?_eq_some_iff.1 hplace
  exact .add (List.mem_of_getElem? hother) hkey

theorem Makes.add_of_not_isSome
    (h : ¬ (entries.findIdx? fun other => kind.key other == kind.key entry).isSome) :
    Makes entries (.add entry) entries.length entries.length none (some entry) :=
  .add (kind.findIdx?_eq_none_iff.1 (Option.not_isSome_iff_eq_none.1 h))

theorem Refused.replace_of_any
    (h : (entries.findIdx? fun other => kind.key other == kind.key entry).any (· != index)) :
    Refused entries (.replace index entry) (.duplicateName kind (kind.name entry)) := by
  cases hplace : entries.findIdx? fun other => kind.key other == kind.key entry with
  | none => simp [hplace] at h
  | some place =>
    have hne : place ≠ index := by simpa [hplace] using h
    exact .replace (kind.findIdx?_eq_some_iff.1 hplace) hne

theorem Makes.replace_of_not_any
    (h : ¬ (entries.findIdx? fun other => kind.key other == kind.key entry).any (· != index))
    (hold : entries[index]? = some old) :
    Makes entries (.replace index entry) old index (some old) (some entry) := by
  refine .replace hold fun place hplace => ?_
  simpa [kind.findIdx?_eq_some_iff.2 hplace] using h

/-- What a change comes to. -/
def run (document : Document) :
    {answer : Type} → EntryChange kind answer → EStateM.Result Error Document answer
  | _, .add entry =>
    if ((document.entries kind).findIdx? fun other => kind.key other == kind.key entry).isSome then
      .error (.invalidDocument (.duplicateName kind (kind.name entry))) document
    else
      .ok (document.entries kind).length
        (document.withEntries kind (document.entries kind ++ [entry]))
  | _, .replace index entry =>
    if ((document.entries kind).findIdx? fun other => kind.key other == kind.key entry).any
        (· != index) then
      .error (.invalidDocument (.duplicateName kind (kind.name entry))) document
    else
      match (document.entries kind)[index]? with
      | none => .error (.invalidDocument (.indexOutside kind index)) document
      | some old => .ok old (document.withEntries kind ((document.entries kind).set index entry))
  | _, .remove name =>
    match (document.entries kind).findIdx? fun entry => kind.key entry == name with
    | none => .ok none document
    | some index => .ok (document.entries kind)[index]?
      (document.withEntries kind ((document.entries kind).eraseIdx index))
  | _, .update index f =>
    match (document.entries kind)[index]? with
    | none => .error (.invalidDocument (.indexOutside kind index)) document
    | some old => .ok ()
      (document.withEntries kind ((document.entries kind).set index (f old)))

/-- A change of entries that fails, or finds nothing, leaves the document as it was; any other one
marks it and alters the entries at one place. -/
theorem run_alters_one (document : Document) {answer : Type} (change : EntryChange kind answer) :
    match change.run document with
    | .error e left => left = document
        ∧ ∃ fault, e = .invalidDocument fault ∧ change.Refused (document.entries kind) fault
    | .ok a left => (left = document ∧ change.Misses (document.entries kind) a)
        ∨ ∃ place old new, change.Makes (document.entries kind) a place old new
          ∧ document.AlteredAt kind place old new left := by
  cases change with
  | add entry =>
    simp only [run]
    split_ifs with hknown
    · exact ⟨rfl, _, rfl, .add_of_isSome hknown⟩
    · exact .inr ⟨_, _, _, .add_of_not_isSome hknown,
        Document.alteredAt_withEntries (.append _ entry)⟩
  | replace index entry =>
    simp only [run]
    split_ifs with hother
    · exact ⟨rfl, _, rfl, .replace_of_any hother⟩
    · cases hold : (document.entries kind)[index]? with
      | none => exact ⟨rfl, _, rfl, .replaceOutside (List.getElem?_eq_none_iff.1 hold)⟩
      | some old => exact .inr ⟨_, _, _, .replace_of_not_any hother hold,
          Document.alteredAt_withEntries (.set hold entry)⟩
  | remove name =>
    simp only [run]
    cases hindex : (document.entries kind).findIdx? fun entry => kind.key entry == name with
    | none => exact .inl ⟨rfl, .remove (kind.findIdx?_eq_none_iff.1 hindex)⟩
    | some place =>
      have hfirst := kind.findIdx?_eq_some_iff.1 hindex
      obtain ⟨old, hold, -⟩ := hfirst.1
      simp only [hold]
      exact .inr ⟨_, _, _, .remove hold hfirst, Document.alteredAt_withEntries (.eraseIdx hold)⟩
  | update index f =>
    simp only [run]
    cases hold : (document.entries kind)[index]? with
    | none => exact ⟨rfl, _, rfl, .updateOutside (List.getElem?_eq_none_iff.1 hold)⟩
    | some old =>
      exact .inr ⟨_, _, _, .update hold, Document.alteredAt_withEntries (.set hold (f old))⟩

end EntryChange

namespace Change

/-- The kind of the entries that a change is about. -/
abbrev kind : Change → EntryKind
  | .addPattern _ | .replacePattern .. | .removePattern _ | .setCached .. => .pattern
  | .addOffset _ | .replaceOffset .. | .removeOffset _ | .setOperation ..
  | .convertToBinary _ => .offset

/-- What a change answers when it goes through. -/
abbrev Answer : Change → Type
  | .addPattern _ | .addOffset _ => Nat
  | .replacePattern .. => PatternEntry
  | .replaceOffset .. => OffsetEntry
  | .removePattern _ => Option PatternEntry
  | .removeOffset _ => Option OffsetEntry
  | .setCached .. | .setOperation .. | .convertToBinary _ => Unit

/-- The edit that makes a change. -/
def edit : (change : Change) → Edit change.Answer
  | .addPattern entry => Edit.addPattern entry
  | .replacePattern index entry => Edit.replacePattern index entry
  | .removePattern name => Edit.removePattern name
  | .setCached index cached => Edit.setCached index cached
  | .addOffset entry => Edit.addOffset entry
  | .replaceOffset index entry => Edit.replaceOffset index entry
  | .removeOffset name => Edit.removeOffset name
  | .setOperation index operation => Edit.setOperation index operation
  | .convertToBinary index => Edit.convertToBinary index

/-- What a change is for the entries of its kind. -/
def onEntries : (change : Change) → EntryChange change.kind change.Answer
  | .addPattern entry => .add entry
  | .replacePattern index entry => .replace index entry
  | .removePattern name => .remove name
  | .setCached index cached => .update index fun entry => { entry with cached }
  | .addOffset entry => .add entry
  | .replaceOffset index entry => .replace index entry
  | .removeOffset name => .remove name
  | .setOperation index operation => .update index fun entry => { entry with operation }
  | .convertToBinary index =>
    .update index fun entry => { entry with operation := entry.operation.map Formula.toBinary }

theorem edit_eq_run (change : Change) (document : Document) :
    change.edit document = change.onEntries.run document := by
  cases change with
  | addPattern entry => exact addPattern_eq document entry
  | addOffset entry => exact addOffset_eq document entry
  | removePattern name => exact removePattern_eq document name
  | removeOffset name => exact removeOffset_eq document name
  | replacePattern index _ | setCached index _ =>
    simp only [edit, replacePattern_eq, setCached_eq, onEntries, EntryChange.run, Document.entries]
    cases document.patterns[index]? <;> rfl
  | replaceOffset index _ | setOperation index _ | convertToBinary index =>
    simp only [edit, replaceOffset_eq, setOperation_eq, convertToBinary_eq, onEntries,
      EntryChange.run, Document.entries]
    cases document.offsets[index]? <;> rfl

/-- A change that fails leaves the document as it was, and so does one that finds nothing to take
out; any other change marks the document as changed and alters the entries of its kind at one
place. -/
theorem edit_alters_one (change : Change) (document : Document) :
    match change.edit document with
    | .error e left => left = document
        ∧ ∃ fault, e = .invalidDocument fault
          ∧ change.onEntries.Refused (document.entries change.kind) fault
    | .ok answer left =>
        (left = document ∧ change.onEntries.Misses (document.entries change.kind) answer)
          ∨ ∃ place old new,
            change.onEntries.Makes (document.entries change.kind) answer place old new
              ∧ document.AlteredAt change.kind place old new left := by
  have hrun := change.onEntries.run_alters_one document
  rw [edit_eq_run]
  cases hresult : change.onEntries.run document <;> rw [hresult] at hrun <;> exact hrun

end Change

end Edit

end Landmark
