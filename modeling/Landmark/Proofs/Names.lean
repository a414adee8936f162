import Mathlib.Data.List.Nodup
import Mathlib.Tactic.Common
import Landmark.Document.Basic
import Landmark.Proofs.Changes

/-!
# The names of a document

Names are compared trimmed. In a valid document no two patterns and no two offsets have one name
(`Document.namesDiffer_of_validate`), and no change of an entry lets a second entry of a name in
(`Change.namesDiffer`). So a name stands for one entry at most: a lookup finds the entry that was
added or put under the name last, finds nothing when it was taken out, and is not touched by changes
of entries of other names (`Document.lookups_follow`).
-/

namespace Landmark

section Keyed

variable {α : Type} {key : α → String} {entries entries' : List α}

/-- The entry that has a key is the one that is found under it. -/
theorem find?_key_eq_some (h : (entries.map key).Nodup) {entry : α} (hmem : entry ∈ entries) :
    (entries.find? fun other => key other == key entry) = some entry := by
  cases hfind : entries.find? fun other => key other == key entry with
  | none =>
    have := List.find?_eq_none.1 hfind entry hmem
    simp at this
  | some other =>
    have hkey : key other = key entry := by simpa using List.find?_some hfind
    rw [List.inj_on_of_nodup_map h (List.mem_of_find?_eq_some hfind) hmem hkey]

variable {old new : Option α}

theorem Spliced.find?_eq (h : Spliced old new entries entries') {name : String}
    (hold : ∀ entry ∈ old, key entry ≠ name) (hnew : ∀ entry ∈ new, key entry ≠ name) :
    (entries'.find? fun entry => key entry == name)
      = entries.find? fun entry => key entry == name := by
  obtain ⟨before, after, rfl, rfl⟩ := h
  have hnone : ∀ place : Option α, (∀ entry ∈ place, key entry ≠ name) →
      (place.toList.find? fun entry => key entry == name) = none := by
    intro place hplace
    refine List.find?_eq_none.2 fun entry hentry => ?_
    simpa using hplace entry (by simpa using hentry)
  simp only [List.find?_append, hnone old hold, hnone new hnew]

theorem perm_toList_append (before after : List α) (place : Option α) :
    (before ++ place.toList ++ after).Perm (place.toList ++ (before ++ after)) := by
  rw [List.append_assoc]
  exact List.perm_append_comm_assoc _ _ _

/-- A key stays with one entry if no entry but the one that is taken out has the key of the one that
is put in. -/
theorem Spliced.nodup (h : Spliced old new entries entries') (hnodup : (entries.map key).Nodup)
    (hfree : ∀ entry ∈ new, ∀ other ∈ entries, key other = key entry → old = some other) :
    (entries'.map key).Nodup := by
  obtain ⟨before, after, rfl, rfl⟩ := h
  rw [((perm_toList_append before after old).map key).nodup_iff, List.map_append,
    List.nodup_append] at hnodup
  rw [((perm_toList_append before after new).map key).nodup_iff, List.map_append,
    List.nodup_append]
  refine ⟨by cases new <;> simp, hnodup.2.1, fun name hname name' hname' heq => ?_⟩
  subst heq
  obtain ⟨entry, hentry, rfl⟩ := List.mem_map.1 hname
  obtain ⟨other, hother, hkey⟩ := List.mem_map.1 hname'
  have hmem : other ∈ before ++ old.toList ++ after :=
    (perm_toList_append before after old).mem_iff.2 (List.mem_append_right _ hother)
  obtain rfl := hfree entry (by simpa using hentry) other hmem hkey
  exact hnodup.2.2 (key other) (by simp) (key other) (List.mem_map_of_mem hother) rfl

/-- What was taken out is not found again. -/
theorem Spliced.find?_eq_none {entry : α} (h : Spliced (some entry) none entries entries')
    (hnodup : (entries.map key).Nodup) :
    (entries'.find? fun other => key other == key entry) = none := by
  obtain ⟨before, after, rfl, rfl⟩ := h
  rw [((perm_toList_append before after (some entry)).map key).nodup_iff] at hnodup
  rw [List.find?_eq_none]
  intro other hother hkey
  rw [beq_iff_eq] at hkey
  refine (List.nodup_cons.1 hnodup).1 (List.mem_map.2 ⟨other, ?_, hkey⟩)
  simpa using hother

/-- The keys still differ if they did before, and under other names than the given ones the same is
found. -/
def KeepsOthers (key : α → String) (names : List String) (entries entries' : List α) : Prop :=
  ((entries.map key).Nodup → (entries'.map key).Nodup)
    ∧ ∀ name ∉ names, (entries'.find? fun entry => key entry == name)
      = entries.find? fun entry => key entry == name

variable {names : List String}

theorem KeepsOthers.refl : KeepsOthers key names entries entries :=
  ⟨id, fun _ _ => rfl⟩

theorem Spliced.keeps (h : Spliced old new entries entries')
    (hold : ∀ entry ∈ old, key entry ∈ names)
    (hnew : ∀ entry ∈ new, key entry ∈ names)
    (hfree : (entries.map key).Nodup → ∀ entry ∈ new, ∀ other ∈ entries, key other = key entry →
      old = some other) : KeepsOthers key names entries entries' := by
  refine ⟨fun hnodup => h.nodup hnodup (hfree hnodup), fun name hname => h.find?_eq ?_ ?_⟩
  · rintro entry hentry rfl
    exact hname (hold entry hentry)
  · rintro entry hentry rfl
    exact hname (hnew entry hentry)

theorem keeps_append {entry : α} (hname : key entry ∈ names)
    (h : ¬ (entries.findIdx? fun other => key other == key entry).isSome) :
    KeepsOthers key names entries (entries ++ [entry]) := by
  refine (Spliced.append entries entry).keeps (by simp) (by simpa using hname) ?_
  rintro - _ ⟨⟩ other hother hkey
  rw [Option.not_isSome_iff_eq_none, List.findIdx?_eq_none_iff] at h
  simpa [hkey] using h other hother

/-- An entry takes the place of another one if no third one has its name. -/
theorem keeps_set {index : Nat} {entry entry' : α} (hentry : entries[index]? = some entry)
    (hname : key entry ∈ names) (hname' : key entry' ∈ names)
    (h : key entry' = key entry
      ∨ ¬ (entries.findIdx? fun other => key other == key entry').any (· != index)) :
    KeepsOthers key names entries (entries.set index entry') := by
  refine (Spliced.set hentry entry').keeps (by simpa using hname) (by simpa using hname') ?_
  rintro hnodup _ ⟨⟩ other hother hkey
  have hmem := List.mem_of_getElem? hentry
  refine congrArg some (List.inj_on_of_nodup_map hnodup hmem hother ?_)
  obtain hsame | hfirst := h
  · rw [hkey, hsame]
  · cases hindex : entries.findIdx? fun other => key other == key entry' with
    | none =>
      have := List.findIdx?_eq_none_iff.1 hindex other hother
      simp [hkey] at this
    | some first =>
      obtain rfl : first = index := by simpa [hindex] using hfirst
      obtain ⟨hlt, hfound, -⟩ := List.findIdx?_eq_some_iff_getElem.1 hindex
      rw [List.getElem?_eq_getElem hlt, Option.some.injEq] at hentry
      rw [hentry, beq_iff_eq] at hfound
      rw [hfound, hkey]

theorem getElem?_of_findIdx? (key : α → String) {name : String} {index : Nat}
    (h : (entries.findIdx? fun other => key other == name) = some index) :
    ∃ entry, entries[index]? = some entry ∧ key entry = name := by
  obtain ⟨hlt, hfound, -⟩ := List.findIdx?_eq_some_iff_getElem.1 h
  exact ⟨_, List.getElem?_eq_getElem hlt, beq_iff_eq.1 hfound⟩

theorem keeps_eraseIdx {name : String} {index : Nat} (hname : name ∈ names)
    (h : (entries.findIdx? fun other => key other == name) = some index) :
    KeepsOthers key names entries (entries.eraseIdx index) := by
  obtain ⟨entry, hentry, rfl⟩ := getElem?_of_findIdx? key h
  exact (Spliced.eraseIdx hentry).keeps (by simpa using hname) (by simp) (by simp)

end Keyed

/-- The name under which an entry is found. -/
def PatternEntry.key (entry : PatternEntry) : String :=
  Text.trim entry.name

/-- The name under which an entry is found. -/
def OffsetEntry.key (entry : OffsetEntry) : String :=
  Text.trim entry.name

namespace Document

/-- No two patterns and no two offsets have the same name. -/
structure NamesDiffer (document : Document) : Prop where
  patterns : (document.patterns.map PatternEntry.key).Nodup
  offsets : (document.offsets.map OffsetEntry.key).Nodup

theorem requireName_eq_ok {kind : EntryKind} {seen : List String} {name found : String}
    (h : requireName kind seen name = .ok found) : found = Text.trim name ∧ found ∉ seen := by
  unfold requireName at h
  dsimp only at h
  split_ifs at h with hempty hseen
  cases h
  exact ⟨rfl, hseen⟩

/-- Entries whose keys differ and are not among those seen before. -/
def Unseen {α : Type} (key : α → String) (seen : List String) (entries : List α) : Prop :=
  (entries.map key).Nodup ∧ ∀ entry ∈ entries, key entry ∉ seen

theorem Unseen.cons {α : Type} {key : α → String} {seen : List String} {entry : α}
    {entries : List α} (h : Unseen key (key entry :: seen) entries) (hseen : key entry ∉ seen) :
    Unseen key seen (entry :: entries) := by
  refine ⟨?_, List.forall_mem_cons.2 ⟨hseen, fun other hother hmem => ?_⟩⟩
  · rw [List.map_cons, List.nodup_cons]
    refine ⟨fun hmem => ?_, h.1⟩
    obtain ⟨other, hother, hkey⟩ := List.mem_map.1 hmem
    exact h.2 other hother (hkey ▸ List.mem_cons_self)
  · exact h.2 other hother (List.mem_cons_of_mem _ hmem)

theorem unseen_of_validatePatterns {format : SignatureFormat} :
    ∀ {entries : List PatternEntry} {seen : List String},
      validatePatterns format seen entries = .ok () → Unseen PatternEntry.key seen entries
  | [], _, _ => by simp [Unseen]
  | entry :: entries, seen, h => by
    rw [validatePatterns] at h
    rcases hname : requireName .pattern seen entry.name with fault | name <;> rw [hname] at h
    · cases h
    · obtain ⟨rfl, hseen⟩ := requireName_eq_ok hname
      rcases hsignature : entry.signature format with fault | signature <;> rw [hsignature] at h
      · cases h
      · exact (unseen_of_validatePatterns h).cons hseen

theorem unseen_of_validateOffsets : ∀ {entries : List OffsetEntry} {seen : List String},
    validateOffsets seen entries = .ok () → Unseen OffsetEntry.key seen entries
  | [], _, _ => by simp [Unseen]
  | entry :: entries, seen, h => by
    rw [validateOffsets] at h
    rcases hname : requireName .offset seen entry.name with fault | name <;> rw [hname] at h
    · cases h
    · obtain ⟨rfl, hseen⟩ := requireName_eq_ok hname
      rcases hvalid : (entry.operation.map Formula.validate).getD (.ok ()) with fault | _ <;>
        rw [hvalid] at h
      · cases h
      · exact (unseen_of_validateOffsets h).cons hseen

/-- The names of a valid document differ. -/
theorem namesDiffer_of_validate {document : Document} {format : SignatureFormat}
    (h : document.validate format = .ok ()) : document.NamesDiffer := by
  rw [validate] at h
  rcases hpatterns : validatePatterns format [] document.patterns with fault | _ <;>
    rw [hpatterns] at h
  · cases h
  · exact ⟨(unseen_of_validatePatterns hpatterns).1, (unseen_of_validateOffsets h).1⟩

end Document

namespace Edit

/-- The names of the patterns that a change adds, replaces, removes or updates, the new one and the
one that was there. -/
def Change.patternNames (document : Document) : Change → List String
  | .addPattern entry => [entry.key]
  | .replacePattern index entry =>
    entry.key :: (document.patterns[index]?.map PatternEntry.key).toList
  | .removePattern name => [name]
  | .setCached index _ => (document.patterns[index]?.map PatternEntry.key).toList
  | _ => []

/-- The names of the offsets that a change adds, replaces, removes or updates, the new one and the
one that was there. -/
def Change.offsetNames (document : Document) : Change → List String
  | .addOffset entry => [entry.key]
  | .replaceOffset index entry =>
    entry.key :: (document.offsets[index]?.map OffsetEntry.key).toList
  | .removeOffset name => [name]
  | .setOperation index _ => (document.offsets[index]?.map OffsetEntry.key).toList
  | .convertToBinary index => (document.offsets[index]?.map OffsetEntry.key).toList
  | _ => []

/-- A change keeps the patterns and the offsets of all other names. -/
theorem Change.keeps (change : Change) (document : Document) :
    KeepsOthers PatternEntry.key (change.patternNames document) document.patterns
        (change.left document).patterns
      ∧ KeepsOthers OffsetEntry.key (change.offsetNames document) document.offsets
        (change.left document).offsets := by
  cases change with
  | addPattern entry =>
    rw [Change.left, Edit.left, addPattern_eq]
    split_ifs with hknown
    · exact ⟨.refl, .refl⟩
    · exact ⟨keeps_append List.mem_cons_self hknown, .refl⟩
  | addOffset entry =>
    rw [Change.left, Edit.left, addOffset_eq]
    split_ifs with hknown
    · exact ⟨.refl, .refl⟩
    · exact ⟨.refl, keeps_append List.mem_cons_self hknown⟩
  | replacePattern index entry =>
    rw [Change.left, Edit.left, replacePattern_eq, Change.patternNames]
    split_ifs with hother
    · exact ⟨.refl, .refl⟩
    · cases hentry : document.patterns[index]? with
      | none => exact ⟨.refl, .refl⟩
      | some old =>
        exact ⟨keeps_set hentry (by simp) (by simp) (.inr hother),
          .refl⟩
  | replaceOffset index entry =>
    rw [Change.left, Edit.left, replaceOffset_eq, Change.offsetNames]
    split_ifs with hother
    · exact ⟨.refl, .refl⟩
    · cases hentry : document.offsets[index]? with
      | none => exact ⟨.refl, .refl⟩
      | some old =>
        exact ⟨.refl,
          keeps_set hentry (by simp) (by simp) (.inr hother)⟩
  | removePattern name =>
    rw [Change.left, Edit.left, removePattern_eq]
    cases hindex : document.patternIndex name with
    | none => exact ⟨.refl, .refl⟩
    | some index => exact ⟨keeps_eraseIdx List.mem_cons_self hindex, .refl⟩
  | removeOffset name =>
    rw [Change.left, Edit.left, removeOffset_eq]
    cases hindex : document.offsetIndex name with
    | none => exact ⟨.refl, .refl⟩
    | some index => exact ⟨.refl, keeps_eraseIdx List.mem_cons_self hindex⟩
  | setCached index cached =>
    rw [Change.left, Edit.left, setCached_eq, Change.patternNames]
    cases hentry : document.patterns[index]? with
    | none => exact ⟨.refl, .refl⟩
    | some entry =>
      exact ⟨keeps_set hentry (by simp) (by simp [PatternEntry.key]) (.inl rfl), .refl⟩
  | setOperation index operation =>
    rw [Change.left, Edit.left, setOperation_eq, Change.offsetNames]
    cases hentry : document.offsets[index]? with
    | none => exact ⟨.refl, .refl⟩
    | some entry => exact ⟨.refl, keeps_set hentry (by simp) (by simp [OffsetEntry.key]) (.inl rfl)⟩
  | convertToBinary index =>
    rw [Change.left, Edit.left, convertToBinary_eq, Change.offsetNames]
    cases hentry : document.offsets[index]? with
    | none => exact ⟨.refl, .refl⟩
    | some entry => exact ⟨.refl, keeps_set hentry (by simp) (by simp [OffsetEntry.key]) (.inl rfl)⟩

theorem Change.namesDiffer (change : Change) {document : Document} (h : document.NamesDiffer) :
    (change.left document).NamesDiffer :=
  ⟨(change.keeps document).1.1 h.patterns, (change.keeps document).2.1 h.offsets⟩

end Edit

namespace Document

open Edit (Change)

variable {document d : Document}

theorem NamesDiffer.pattern?_eq (h : d.NamesDiffer) {entry : PatternEntry}
    (hmem : entry ∈ d.patterns) : d.pattern? (Text.trim entry.name) = some entry :=
  find?_key_eq_some h.patterns hmem

theorem NamesDiffer.offset?_eq (h : d.NamesDiffer) {entry : OffsetEntry}
    (hmem : entry ∈ d.offsets) : d.offset? (Text.trim entry.name) = some entry :=
  find?_key_eq_some h.offsets hmem

/-- The names of a document differ after a change that succeeds, too. -/
theorem NamesDiffer.of_eq_ok (h : document.NamesDiffer) (change : Change)
    (hleft : change.left document = d) : d.NamesDiffer :=
  hleft ▸ change.namesDiffer h

theorem pattern?_of_addPattern (hnames : document.NamesDiffer) {entry : PatternEntry} {index : Nat}
    (h : Edit.addPattern entry document = .ok index d) :
    d.pattern? (Text.trim entry.name) = some entry := by
  refine (hnames.of_eq_ok (.addPattern entry) (by rw [Change.left, Edit.left, h])).pattern?_eq ?_
  rw [Edit.addPattern_eq] at h
  split_ifs at h
  cases h
  exact List.mem_append_right _ List.mem_cons_self

theorem offset?_of_addOffset (hnames : document.NamesDiffer) {entry : OffsetEntry} {index : Nat}
    (h : Edit.addOffset entry document = .ok index d) :
    d.offset? (Text.trim entry.name) = some entry := by
  refine (hnames.of_eq_ok (.addOffset entry) (by rw [Change.left, Edit.left, h])).offset?_eq ?_
  rw [Edit.addOffset_eq] at h
  split_ifs at h
  cases h
  exact List.mem_append_right _ List.mem_cons_self

theorem pattern?_of_replacePattern (hnames : document.NamesDiffer) {entry old : PatternEntry}
    {index : Nat} (h : Edit.replacePattern index entry document = .ok old d) :
    d.pattern? (Text.trim entry.name) = some entry := by
  refine (hnames.of_eq_ok (.replacePattern index entry)
    (by rw [Change.left, Edit.left, h])).pattern?_eq ?_
  rw [Edit.replacePattern_eq] at h
  split_ifs at h
  cases hentry : document.patterns[index]? with
  | none => simp only [hentry, reduceCtorEq] at h
  | some found =>
    simp only [hentry] at h
    cases h
    exact List.mem_set (List.getElem?_eq_some_iff.1 hentry).1 entry

theorem offset?_of_replaceOffset (hnames : document.NamesDiffer) {entry old : OffsetEntry}
    {index : Nat} (h : Edit.replaceOffset index entry document = .ok old d) :
    d.offset? (Text.trim entry.name) = some entry := by
  refine (hnames.of_eq_ok (.replaceOffset index entry)
    (by rw [Change.left, Edit.left, h])).offset?_eq ?_
  rw [Edit.replaceOffset_eq] at h
  split_ifs at h
  cases hentry : document.offsets[index]? with
  | none => simp only [hentry, reduceCtorEq] at h
  | some found =>
    simp only [hentry] at h
    cases h
    exact List.mem_set (List.getElem?_eq_some_iff.1 hentry).1 entry

theorem pattern?_of_removePattern (hnames : document.NamesDiffer) {name : String}
    {old : PatternEntry} (h : Edit.removePattern name document = .ok (some old) d) :
    d.pattern? name = none := by
  rw [Edit.removePattern_eq] at h
  cases hindex : document.patternIndex name with
  | none => simp [hindex] at h
  | some index =>
    simp only [hindex, EStateM.Result.ok.injEq] at h
    obtain ⟨-, rfl⟩ := h
    obtain ⟨entry, hentry, hname⟩ := getElem?_of_findIdx? PatternEntry.key hindex
    rw [← hname]
    exact (Spliced.eraseIdx hentry).find?_eq_none hnames.patterns

theorem offset?_of_removeOffset (hnames : document.NamesDiffer) {name : String} {old : OffsetEntry}
    (h : Edit.removeOffset name document = .ok (some old) d) : d.offset? name = none := by
  rw [Edit.removeOffset_eq] at h
  cases hindex : document.offsetIndex name with
  | none => simp [hindex] at h
  | some index =>
    simp only [hindex, EStateM.Result.ok.injEq] at h
    obtain ⟨-, rfl⟩ := h
    obtain ⟨entry, hentry, hname⟩ := getElem?_of_findIdx? OffsetEntry.key hindex
    rw [← hname]
    exact (Spliced.eraseIdx hentry).find?_eq_none hnames.offsets

/-- In a valid document names differ. Where they do, they still do after any changes; at that point
a lookup finds the entry that is then added, or put in the place of another one, under its name, it
finds nothing under the name of an entry that is taken out, and under any name but those of the
entry that is changed it finds what it found. -/
theorem lookups_follow (document : Document) :
    (∀ format, document.validate format = .ok () → document.NamesDiffer)
    ∧ (document.NamesDiffer → ∀ changes : List Change,
      let reached := changes.foldl (fun d change => change.left d) document
      reached.NamesDiffer
      ∧ (∀ entry index d, Edit.addPattern entry reached = .ok index d →
        d.pattern? (Text.trim entry.name) = some entry)
      ∧ (∀ index entry old d, Edit.replacePattern index entry reached = .ok old d →
        d.pattern? (Text.trim entry.name) = some entry)
      ∧ (∀ name old d, Edit.removePattern name reached = .ok (some old) d →
        d.pattern? name = none)
      ∧ (∀ entry index d, Edit.addOffset entry reached = .ok index d →
        d.offset? (Text.trim entry.name) = some entry)
      ∧ (∀ index entry old d, Edit.replaceOffset index entry reached = .ok old d →
        d.offset? (Text.trim entry.name) = some entry)
      ∧ (∀ name old d, Edit.removeOffset name reached = .ok (some old) d → d.offset? name = none)
      ∧ ∀ change : Change, ∀ name,
        (name ∉ change.patternNames reached →
          (change.left reached).pattern? name = reached.pattern? name)
        ∧ (name ∉ change.offsetNames reached →
          (change.left reached).offset? name = reached.offset? name)) := by
  refine ⟨fun format => namesDiffer_of_validate, fun hstart changes => ?_⟩
  intro reached
  have hreached : reached.NamesDiffer := by
    unfold reached
    induction changes generalizing document with
    | nil => exact hstart
    | cons change changes ih => exact ih _ (change.namesDiffer hstart)
  exact ⟨hreached, fun _ _ _ => pattern?_of_addPattern hreached,
    fun _ _ _ _ => pattern?_of_replacePattern hreached,
    fun _ _ _ => pattern?_of_removePattern hreached, fun _ _ _ => offset?_of_addOffset hreached,
    fun _ _ _ _ => offset?_of_replaceOffset hreached,
    fun _ _ _ => offset?_of_removeOffset hreached,
    fun change name => ⟨(change.keeps reached).1.2 name, (change.keeps reached).2.2 name⟩⟩

/-- A pattern that is put in the place of another one is found under its own name, and the pattern
beside it is still found. -/
theorem lookups_follow_renamed :
    let document : Document := { patterns := [⟨" A ", "10", none⟩, ⟨"B\n", "20", none⟩] }
    let entry : PatternEntry := ⟨"C\t", "30", none⟩
    document.NamesDiffer
      ∧ ∃ d, Edit.replacePattern 0 entry document = .ok ⟨" A ", "10", none⟩ d
        ∧ d.pattern? (Text.trim entry.name) = some entry
        ∧ d.pattern? "B" = document.pattern? "B" := by
  intro document entry
  have hnames : document.NamesDiffer := ⟨by decide +kernel, by decide +kernel⟩
  have hfree : ¬ (document.patternIndex (Text.trim entry.name)).any (· != 0) := by decide +kernel
  have hreplaced : Edit.replacePattern 0 entry document = .ok ⟨" A ", "10", none⟩
      { document with patterns := document.patterns.set 0 entry, dirty := true } := by
    rw [Edit.replacePattern_eq, if_neg hfree]
    rfl
  obtain ⟨-, -, hreplace, -, -, -, -, hother⟩ := (lookups_follow document).2 hnames []
  refine ⟨hnames, _, hreplaced, hreplace 0 entry _ _ hreplaced, ?_⟩
  have hkept := (hother (.replacePattern 0 entry) "B").1 (by decide +kernel)
  rw [List.foldl_nil, Change.left, Edit.left, hreplaced] at hkept
  exact hkept

end Document

end Landmark
