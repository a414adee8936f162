import Mathlib.Tactic.Common
import Landmark.Document.Edit
import Landmark.Proofs.Edits

/-!
# What a change of one entry comes to

Each of the nine changes either refuses and leaves the document alone, or marks it and puts an entry
in, another in its place, or takes one out: of the one list the entries before and behind that place
stay as they are (`Spliced`), and the other list stays whole.
-/

namespace Landmark

/-- Two lists that are the same but at one place, where `old` stands in the one and `new` in the
other. -/
def Spliced {α : Type} (old new : Option α) (entries entries' : List α) : Prop :=
  ∃ before after, entries = before ++ old.toList ++ after ∧ entries' = before ++ new.toList ++ after

/-- Two lists that are the same but at the given place. -/
def SplicedAt {α : Type} (place : Nat) (old new : Option α) (entries entries' : List α) : Prop :=
  ∃ before after, before.length = place ∧ entries = before ++ old.toList ++ after
    ∧ entries' = before ++ new.toList ++ after

namespace SplicedAt

variable {α : Type} {entries : List α} {index : Nat} {entry : α}

theorem append (entries : List α) (entry : α) :
    SplicedAt entries.length none (some entry) entries (entries ++ [entry]) :=
  ⟨entries, [], rfl, by simp, by simp⟩

theorem set (h : entries[index]? = some entry) (entry' : α) :
    SplicedAt index (some entry) (some entry') entries (entries.set index entry') := by
  obtain ⟨hlt, rfl⟩ := List.getElem?_eq_some_iff.1 h
  refine ⟨entries.take index, entries.drop (index + 1),
    List.length_take_of_le (Nat.le_of_lt hlt), ?_, ?_⟩
  · simp
  · rw [List.set_eq_take_append_cons_drop, if_pos hlt, Option.toList_some, List.append_assoc,
      List.singleton_append]

theorem eraseIdx (h : entries[index]? = some entry) :
    SplicedAt index (some entry) none entries (entries.eraseIdx index) := by
  obtain ⟨hlt, rfl⟩ := List.getElem?_eq_some_iff.1 h
  refine ⟨entries.take index, entries.drop (index + 1),
    List.length_take_of_le (Nat.le_of_lt hlt), ?_, ?_⟩
  · simp
  · rw [List.eraseIdx_eq_take_drop_succ, Option.toList_none, List.append_nil]

theorem spliced {place : Nat} {old new : Option α} {entries' : List α}
    (h : SplicedAt place old new entries entries') : Spliced old new entries entries' := by
  obtain ⟨before, after, -, hentries⟩ := h
  exact ⟨before, after, hentries⟩

end SplicedAt

namespace Spliced

variable {α : Type} {old new : Option α} {entries entries' : List α}

theorem append (entries : List α) (entry : α) :
    Spliced none (some entry) entries (entries ++ [entry]) :=
  (SplicedAt.append entries entry).spliced

theorem set {index : Nat} {entry : α} (h : entries[index]? = some entry) (entry' : α) :
    Spliced (some entry) (some entry') entries (entries.set index entry') :=
  (SplicedAt.set h entry').spliced

theorem eraseIdx {index : Nat} {entry : α} (h : entries[index]? = some entry) :
    Spliced (some entry) none entries (entries.eraseIdx index) :=
  (SplicedAt.eraseIdx h).spliced

end Spliced

namespace Edit

/-- A change of one entry. -/
inductive Change
  | addPattern (entry : PatternEntry)
  | replacePattern (index : Nat) (entry : PatternEntry)
  | removePattern (name : String)
  | setCached (index : Nat) (cached : Option Finding)
  | addOffset (entry : OffsetEntry)
  | replaceOffset (index : Nat) (entry : OffsetEntry)
  | removeOffset (name : String)
  | setOperation (index : Nat) (operation : Option Formula)
  | convertToBinary (index : Nat)

/-- The document that a change leaves, whether it is refused or not. -/
def Change.left : Change → Document → Document
  | .addPattern entry => (Edit.addPattern entry).left
  | .replacePattern index entry => (Edit.replacePattern index entry).left
  | .removePattern name => (Edit.removePattern name).left
  | .setCached index cached => (Edit.setCached index cached).left
  | .addOffset entry => (Edit.addOffset entry).left
  | .replaceOffset index entry => (Edit.replaceOffset index entry).left
  | .removeOffset name => (Edit.removeOffset name).left
  | .setOperation index operation => (Edit.setOperation index operation).left
  | .convertToBinary index => (Edit.convertToBinary index).left

variable (document : Document)

theorem addPattern_eq (entry : PatternEntry) : addPattern entry document
    = if (document.patternIndex (Text.trim entry.name)).isSome then
        .error (.invalidDocument (.duplicateName .pattern entry.name)) document
      else .ok document.patterns.length
        { document with patterns := document.patterns ++ [entry], dirty := true } := by
  change (if _ then refuse _ else _ : Edit Nat) document = _
  split_ifs <;> rfl

theorem addOffset_eq (entry : OffsetEntry) : addOffset entry document
    = if (document.offsetIndex (Text.trim entry.name)).isSome then
        .error (.invalidDocument (.duplicateName .offset entry.name)) document
      else .ok document.offsets.length
        { document with offsets := document.offsets ++ [entry], dirty := true } := by
  change (if _ then refuse _ else _ : Edit Nat) document = _
  split_ifs <;> rfl

theorem replacePattern_eq (index : Nat) (entry : PatternEntry) :
    replacePattern index entry document
      = if (document.patternIndex (Text.trim entry.name)).any (· != index) then
          .error (.invalidDocument (.duplicateName .pattern entry.name)) document
        else match document.patterns[index]? with
          | none => .error (.invalidDocument (.indexOutside .pattern index)) document
          | some old => .ok old
            { document with patterns := document.patterns.set index entry, dirty := true } := by
  change (if _ then refuse _ else match document.patterns[index]? with
    | none => _ | some _ => _ : Edit PatternEntry) document = _
  split_ifs
  · rfl
  · cases document.patterns[index]? <;> rfl

theorem replaceOffset_eq (index : Nat) (entry : OffsetEntry) :
    replaceOffset index entry document
      = if (document.offsetIndex (Text.trim entry.name)).any (· != index) then
          .error (.invalidDocument (.duplicateName .offset entry.name)) document
        else match document.offsets[index]? with
          | none => .error (.invalidDocument (.indexOutside .offset index)) document
          | some old => .ok old
            { document with offsets := document.offsets.set index entry, dirty := true } := by
  change (if _ then refuse _ else match document.offsets[index]? with
    | none => _ | some _ => _ : Edit OffsetEntry) document = _
  split_ifs
  · rfl
  · cases document.offsets[index]? <;> rfl

theorem removePattern_eq (name : String) : removePattern name document
    = match document.patternIndex name with
      | none => .ok none document
      | some index => .ok document.patterns[index]?
        { document with patterns := document.patterns.eraseIdx index, dirty := true } := by
  change (match document.patternIndex name with
    | none => _ | some _ => _ : Edit (Option PatternEntry)) document = _
  cases document.patternIndex name <;> rfl

theorem removeOffset_eq (name : String) : removeOffset name document
    = match document.offsetIndex name with
      | none => .ok none document
      | some index => .ok document.offsets[index]?
        { document with offsets := document.offsets.eraseIdx index, dirty := true } := by
  change (match document.offsetIndex name with
    | none => _ | some _ => _ : Edit (Option OffsetEntry)) document = _
  cases document.offsetIndex name <;> rfl

theorem setCached_eq (index : Nat) (cached : Option Finding) : setCached index cached document
    = match document.patterns[index]? with
      | none => .error (.invalidDocument (.indexOutside .pattern index)) document
      | some entry => .ok () { document with
          patterns := document.patterns.set index { entry with cached }
          dirty := true } := by
  change (match document.patterns[index]? with | none => _ | some _ => _ : Edit Unit) document = _
  cases document.patterns[index]? <;> rfl

theorem setOperation_eq (index : Nat) (operation : Option Formula) :
    setOperation index operation document = match document.offsets[index]? with
      | none => .error (.invalidDocument (.indexOutside .offset index)) document
      | some entry => .ok () { document with
          offsets := document.offsets.set index { entry with operation }
          dirty := true } := by
  change (match document.offsets[index]? with | none => _ | some _ => _ : Edit Unit) document = _
  cases document.offsets[index]? <;> rfl

theorem convertToBinary_eq (index : Nat) : convertToBinary index document
    = match document.offsets[index]? with
      | none => .error (.invalidDocument (.indexOutside .offset index)) document
      | some entry => .ok () { document with
          offsets := document.offsets.set index
            { entry with operation := entry.operation.map Formula.toBinary }
          dirty := true } := by
  change (match document.offsets[index]? with | none => _ | some _ => _ : Edit Unit) document = _
  cases document.offsets[index]? <;> rfl

end Edit

end Landmark
