import Mathlib.Tactic.Common
import Landmark.Locator.Lookup
import Landmark.Proofs.Changes
import Landmark.Proofs.Agreement

/-!
# Looking patterns up

The lookup of a pattern gives the answer of its entry: the address of a finding of the module's
build, or else what a search of the module comes to (`Document.exists_locate_eq`). Keeping what a
search has found changes nothing in that answer, so lookups leave the meaning of a document as it
is, and documents of one meaning give the same answers.
-/

namespace Landmark

open Landmark.Task (Agree)

section Search

variable {σ τ : Type} {R : σ → τ → Prop}

theorem Access.bytes_agree (access : Access) (memory : Memory) (span : Span) :
    Agree R (access.bytes memory span) (access.bytes memory span) := by
  unfold Access.bytes
  split_ifs
  · exact .pure _
  · cases access with
    | inPlace =>
      cases memory.view span.first span.length with
      | none => exact .throw _
      | some bytes => exact .pure bytes
    | copied =>
      refine .bind (.bind (.record _) fun _ => .ofExcept _) fun bytes => ?_
      split_ifs
      · exact .pure bytes
      · exact .throw _

/-- A search does not touch the state that it runs beside. -/
theorem Search.findFirstInModule_agree (search : Search) (target : Target) :
    Agree R (search.findFirstInModule target) (search.findFirstInModule target) := by
  unfold Search.findFirstInModule Search.findFirst Search.findMany
  rw [if_neg Nat.one_ne_zero]
  refine .bind (.bind (Access.bytes_agree _ _ _) fun bytes => .bind (.record _) fun _ => .pure _)
    fun addresses => ?_
  cases addresses with
  | nil => exact .throw _
  | cons address _ => exact .pure address

/-- What the first match in a module comes to. -/
def Search.found (search : Search) (target : Target) : Except Error UInt64 :=
  (search.findFirstInModule target : Task Unit UInt64).answer ⟨(), []⟩

theorem Search.exists_findFirstInModule_eq (search : Search) (target : Target) (s : Trail σ) :
    ∃ log, search.findFirstInModule target s
      = Task.ofExcept (search.found target) ⟨s.state, log⟩ := by
  have hagree : Agree (fun state (_ : Unit) => state = s.state) _ _ :=
    search.findFirstInModule_agree target
  have hanswer := hagree.answer_eq (s := s) (t := ⟨(), []⟩) rfl
  have hstate := hagree.final (s := s) (t := ⟨(), []⟩) rfl
  refine ⟨(Task.final (search.findFirstInModule target) s).log, ?_⟩
  rw [Task.eq_ofExcept (search.findFirstInModule target) s, hanswer, found, ← hstate]

end Search

namespace Image

/-- A distance that was measured in one module leads to the same place in any other. -/
theorem addressAt_offsetOf_of (image image' : Image) (address : UInt64) :
    image'.addressAt (image.offsetOf address) = address - image.base + image'.base := by
  rw [addressAt, offsetOf, UInt64.toUInt64_toInt64, UInt64.add_comm]

theorem addressAt_offsetOf (image : Image) (address : UInt64) :
    image.addressAt (image.offsetOf address) = address := by
  rw [addressAt_offsetOf_of, UInt64.sub_add_cancel]

end Image

variable (target : Target) (settings : Settings)

namespace PatternEntry

/-- What a search of the module for an entry's signature comes to. -/
def sought (entry : PatternEntry) : Except Error UInt64 :=
  match entry.signature settings.format with
  | .ok signature => (settings.search signature).found target
  | .error fault => .error (.invalidPattern fault)

/-- The address of an entry, or why it has none. -/
def answer (entry : PatternEntry) : Except Error UInt64 :=
  match entry.cached.bind fun finding => finding.address? target.image with
  | some address => .ok address
  | none => entry.sought target settings

/-- What of an entry matters to a locator: all but how it comes to its answer. -/
def meaning (entry : PatternEntry) : String × String × Except Error UInt64 :=
  (entry.name, entry.pattern, entry.answer target settings)

theorem answer_capture (entry : PatternEntry) {address : UInt64}
    (h : entry.sought target settings = .ok address) :
    { entry with cached := some (Finding.capture address target.image) }.answer target settings
      = .ok address := by
  unfold answer
  simp only [Option.bind_some]
  unfold Finding.address?
  split_ifs
  · simp only [Finding.capture, Image.addressAt_offsetOf]
  · exact h

end PatternEntry

namespace Document

/-- What of a document matters to a locator. -/
def meaning (document : Document) :
    List (String × String × Except Error UInt64) × List OffsetEntry :=
  (document.patterns.map (PatternEntry.meaning target settings), document.offsets)

/-- The address of a named pattern, or why it has none. -/
def answer (document : Document) (name : String) : Except Error UInt64 :=
  match document.pattern? name with
  | some entry => entry.answer target settings
  | none => .error (.unresolvedPattern name)

variable {target settings} {document document' : Document}

theorem offset?_congr (h : document.meaning target settings = document'.meaning target settings)
    (name : String) : document.offset? name = document'.offset? name := by
  rw [offset?, offset?, show document.offsets = document'.offsets from congrArg Prod.snd h]

/-- Documents of one meaning give the same answers. -/
theorem answer_congr (h : document.meaning target settings = document'.meaning target settings)
    (name : String) : document.answer target settings name = document'.answer target settings name
    := by
  have hmap (document : Document) : document.answer target settings name
      = ((document.meaning target settings).1.find? fun part => Text.trim part.1 == name).elim
        (.error (.unresolvedPattern name)) fun part => part.2.2 := by
    rw [answer, pattern?, meaning, List.find?_map]
    change _ = ((document.patterns.find? fun entry => Text.trim entry.name == name).map _).elim _ _
    cases document.patterns.find? fun entry => Text.trim entry.name == name <;> rfl
  rw [hmap, hmap, h]

/-- What a document says apart from its findings. -/
def definitions (document : Document) : List (String × String) × List OffsetEntry :=
  (document.patterns.map fun entry => (entry.name, entry.pattern), document.offsets)

theorem definitions_congr
    (h : document.meaning target settings = document'.meaning target settings) :
    document.definitions = document'.definitions := by
  have hmap (document : Document) : document.definitions
      = ((document.meaning target settings).1.map fun part => (part.1, part.2.1),
        (document.meaning target settings).2) := by
    rw [definitions, meaning, List.map_map]
    rfl
  rw [hmap, hmap, h]

theorem validatePatterns_congr (format : SignatureFormat) :
    ∀ {entries entries' : List PatternEntry} (seen : List String),
      entries.map (PatternEntry.meaning target settings)
          = entries'.map (PatternEntry.meaning target settings) →
        validatePatterns format seen entries = validatePatterns format seen entries'
  | [], [], _, _ => rfl
  | [], entry :: entries, _, h => by cases h
  | entry :: entries, [], _, h => by cases h
  | entry :: entries, entry' :: entries', seen, h => by
    rw [List.map_cons, List.map_cons, List.cons.injEq] at h
    obtain ⟨hentry, hentries⟩ := h
    have hname : entry.name = entry'.name := congrArg Prod.fst hentry
    have hpattern : entry.pattern = entry'.pattern := congrArg (fun part => part.2.1) hentry
    have hsignature : entry.signature format = entry'.signature format := by
      rw [PatternEntry.signature, PatternEntry.signature, hpattern]
    rw [validatePatterns, validatePatterns, hname, hsignature]
    refine congrArg _ (funext fun name => ?_)
    rw [validatePatterns_congr format (name :: seen) hentries]

/-- Whether a document is valid is a matter of its meaning. -/
theorem validate_congr (h : document.meaning target settings = document'.meaning target settings)
    (format : SignatureFormat) : document.validate format = document'.validate format := by
  rw [validate, validate, validatePatterns_congr format [] (congrArg Prod.fst h),
    show document.offsets = document'.offsets from congrArg Prod.snd h]

/-- The entry under a name is the one at the name's index. -/
theorem pattern?_eq (document : Document) (name : String) : document.pattern? name
    = (document.patternIndex name).bind fun index => document.patterns[index]? :=
  List.find?_eq_bind_findIdx?_getElem?

theorem map_set_of_getElem? {α β : Type} {f : α → β} {index : Nat} {a b : α} :
    ∀ {as : List α}, as[index]? = some a → f b = f a → (as.set index b).map f = as.map f := by
  intro as ha hb
  obtain ⟨hlt, rfl⟩ := List.getElem?_eq_some_iff.1 ha
  rw [List.map_set, hb, ← List.getElem_map f (h := by simpa using hlt), List.set_getElem_self]

/-- A setting of a finding at the index of an entry. -/
theorem editing_setCached {s : Trail Document} {index : Nat} {entry : PatternEntry}
    (hentry : s.state.patterns[index]? = some entry) (cached : Option Finding) :
    editing (Edit.setCached index cached) s = .ok () { s with
      state := { s.state with
        patterns := s.state.patterns.set index { entry with cached }
        dirty := true } } := by
  rw [editing, Edit.setCached_eq]
  simp only [hentry]

theorem exists_searchFor_eq (target : Target) (settings : Settings) (name : String) {index : Nat}
    {entry : PatternEntry} (s : Trail Document) (hentry : s.state.patterns[index]? = some entry) :
    ∃ t : Trail Document, searchFor target settings name index entry s
        = Task.ofExcept (entry.sought target settings) t
      ∧ (t.state = s.state ∨ ∃ address, entry.sought target settings = .ok address
        ∧ t.state = { s.state with
            patterns := s.state.patterns.set index
              { entry with cached := some (Finding.capture address target.image) }
            dirty := true }) := by
  unfold searchFor PatternEntry.sought
  cases entry.signature settings.format with
  | error fault => exact ⟨s, rfl, .inl rfl⟩
  | ok signature =>
    obtain ⟨log, hfound⟩ := (settings.search signature).exists_findFirstInModule_eq target
      ⟨s.state, .sought name :: s.log⟩
    dsimp only
    change ∃ t, (Search.findFirstInModule _ target >>= _ : Task Document UInt64)
      ⟨s.state, .sought name :: s.log⟩ = _ ∧ _
    cases hanswer : (settings.search signature).found target with
    | error e =>
      rw [hanswer] at hfound
      exact ⟨⟨s.state, log⟩, Task.bind_error hfound, .inl rfl⟩
    | ok address =>
      rw [hanswer] at hfound
      rw [Task.bind_ok hfound]
      have hset := editing_setCached (s := ⟨s.state, .located name address :: log⟩) hentry
        (some (Finding.capture address target.image))
      exact ⟨_, (Task.bind_ok rfl).trans (Task.bind_ok hset), .inr ⟨address, rfl, rfl⟩⟩

/-- What lookups may have made of a document: it means the same, and if it is another one it counts
as changed. -/
structure Enriched (target : Target) (settings : Settings) (origin document : Document) : Prop where
  meaning_eq : document.meaning target settings = origin.meaning target settings
  eq_or_dirty : document = origin ∨ document.dirty = true

theorem Enriched.trans {first second third : Document} (h : Enriched target settings first second)
    (h' : Enriched target settings second third) : Enriched target settings first third := by
  refine ⟨h'.meaning_eq.trans h.meaning_eq, ?_⟩
  rcases h'.eq_or_dirty with rfl | hdirty
  · exact h.eq_or_dirty
  · exact .inr hdirty

theorem Enriched.eq_of_unmarked {origin document : Document}
    (h : Enriched target settings origin document) (hclean : document.dirty = false) :
    document = origin := by
  rcases h.eq_or_dirty with heq | hdirty
  · exact heq
  · rw [hclean] at hdirty
    cases hdirty

theorem locate_eq (target : Target) (settings : Settings) (name : String) (s : Trail Document) :
    locate target settings name s = match s.state.patternIndex name with
      | none => .error (.unresolvedPattern name) s
      | some index =>
        match s.state.patterns[index]? with
        | none => .error (.unresolvedPattern name) s
        | some entry =>
          match entry.cached.bind fun finding => finding.address? target.image with
          | some address => .ok address s
          | none => searchFor target settings name index entry s := by
  refine (Task.bind_ok rfl).trans ?_
  rcases s.state.patternIndex name with _ | index
  · rfl
  · dsimp only
    rcases s.state.patterns[index]? with _ | entry
    · rfl
    · dsimp only
      rcases entry.cached.bind fun finding => finding.address? target.image with _ | address <;> rfl

theorem exists_locate_eq (target : Target) (settings : Settings) (name : String)
    (s : Trail Document) : ∃ t : Trail Document,
      locate target settings name s = Task.ofExcept (s.state.answer target settings name) t
        ∧ Enriched target settings s.state t.state := by
  rw [locate_eq, answer, pattern?_eq]
  cases s.state.patternIndex name with
  | none => exact ⟨s, rfl, rfl, .inl rfl⟩
  | some index =>
    rw [Option.bind_some]
    dsimp only
    cases hentry : s.state.patterns[index]? with
    | none => exact ⟨s, rfl, rfl, .inl rfl⟩
    | some entry =>
      simp only [PatternEntry.answer]
      cases hcached : entry.cached.bind fun finding => finding.address? target.image with
      | some address => exact ⟨s, rfl, rfl, .inl rfl⟩
      | none =>
        obtain ⟨t, heq, hstate⟩ := exists_searchFor_eq target settings name s hentry
        refine ⟨t, heq, ?_⟩
        rcases hstate with hstate | ⟨address, hsought, hstate⟩
        · exact ⟨by rw [hstate], .inl hstate⟩
        · refine ⟨?_, .inr (by rw [hstate])⟩
          rw [hstate, meaning, meaning, map_set_of_getElem? hentry]
          rw [PatternEntry.meaning, PatternEntry.meaning,
            entry.answer_capture target settings hsought, PatternEntry.answer, hcached, hsought]

theorem locate_agree {origin origin' : Document}
    (h : origin.meaning target settings = origin'.meaning target settings) (name : String) :
    Agree (fun d d' => Enriched target settings origin d ∧ Enriched target settings origin' d')
      (locate target settings name) (locate target settings name) := by
  rintro s t ⟨hs, ht⟩
  obtain ⟨s', heq, hs'⟩ := exists_locate_eq target settings name s
  obtain ⟨t', heq', ht'⟩ := exists_locate_eq target settings name t
  have hmeaning := (hs.meaning_eq.trans h).trans ht.meaning_eq.symm
  rw [heq, heq', answer_congr hmeaning]
  exact Agree.ofExcept _ _ _ ⟨hs.trans hs', ht.trans ht'⟩

end Document

end Landmark
