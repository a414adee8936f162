import Mathlib.Tactic.Common
import Landmark.Proofs.Undisturbed

/-!
# No pattern is found twice

A pattern is searched only while its entry has no finding of the module's build, and finding it
gives it one (`Once.found`). In a session that only resolves, findings are never lost, whatever the
store refuses. So each pattern is found at most once, and one that had its finding at the start is
not even searched (`run_searches_once`).
-/

namespace Landmark

/-- Whether an event is that a search has found the named pattern. -/
def Event.locates (name : String) : Event → Bool
  | .located found _ => found == name
  | _ => false

namespace Document

/-- Whether the named pattern has a finding of the module's build. -/
def Settled (image : Image) (name : String) (document : Document) : Prop :=
  ∃ entry, document.pattern? name = some entry ∧ entry.IsSettled image

theorem not_settled {image : Image} {name : String} {document : Document}
    {entry : PatternEntry} (hentry : document.pattern? name = some entry)
    (hopen : ¬ entry.IsSettled image) : ¬ document.Settled image name := by
  rintro ⟨other, hother, hsettled⟩
  rw [hentry] at hother
  cases hother
  exact hopen hsettled

variable {image : Image} {document : Document} {index : Nat} {entry : PatternEntry}

/-- A finding that was just made is of the module's build, if that reads as its own trimmed text. -/
theorem isSettled_capture (htrim : Text.trim image.version = image.version) (address : UInt64) :
    { entry with cached := some (Finding.capture address image) }.IsSettled image :=
  ⟨_, rfl, by simp [Finding.isCurrent, Finding.capture, htrim]⟩

theorem Settled.keepFinding (htrim : Text.trim image.version = image.version)
    (hentry : document.patterns[index]? = some entry) (address : UInt64) {name : String}
    (h : document.Settled image name ∨ document.patternIndex name = some index) :
    (document.keepFinding index entry (Finding.capture address image)).Settled image name := by
  unfold Settled
  rw [pattern?_keepFinding hentry]
  split_ifs with hindex
  · exact ⟨_, rfl, isSettled_capture htrim address⟩
  · exact h.resolve_right hindex

end Document

/-- How often a pattern was found, and what it has then. -/
structure Once (image : Image) (origin : Document) (name : String) (s : Trail Document) :
    Prop where
  countP_le : s.log.countP (Event.locates name) ≤ 1
  settled_of_located : s.log.countP (Event.locates name) ≠ 0 → s.state.Settled image name
  settled_of_origin : origin.Settled image name → s.state.Settled image name
  not_sought : origin.Settled image name → .sought name ∉ s.log

namespace Once

variable {image : Image} {origin : Document} {name : String} {s : Trail Document}

theorem cons (h : Once image origin name s) {event : Event} (hlocates : event.locates name = false)
    (hsought : origin.Settled image name → event ≠ .sought name) :
    Once image origin name ⟨s.state, event :: s.log⟩ where
  countP_le := by
    rw [List.countP_cons_of_neg (by simp [hlocates])]
    exact h.countP_le
  settled_of_located := by
    rw [List.countP_cons_of_neg (by simp [hlocates])]
    exact h.settled_of_located
  settled_of_origin := h.settled_of_origin
  not_sought hsettled := by
    rw [List.mem_cons, not_or]
    exact ⟨(hsought hsettled).symm, h.not_sought hsettled⟩

theorem found (h : Once image origin name s) (htrim : Text.trim image.version = image.version)
    {found : String} {index : Nat} {entry : PatternEntry} {address : UInt64}
    (hindex : s.state.patternIndex found = some index)
    (hentry : s.state.patterns[index]? = some entry) (hopen : ¬ entry.IsSettled image) :
    Once image origin name
      ⟨s.state.keepFinding index entry (Finding.capture address image),
        .located found address :: s.log⟩ := by
  have hkeep : s.state.Settled image name ∨ s.state.patternIndex name = some index →
      (s.state.keepFinding index entry (Finding.capture address image)).Settled image name :=
    Document.Settled.keepFinding htrim hentry address
  by_cases hname : found = name
  · subst hname
    have hpattern : s.state.pattern? found = some entry := by
      rw [Document.pattern?_eq, hindex, Option.bind_some, hentry]
    have hnone : s.log.countP (Event.locates found) = 0 := by
      by_contra hne
      exact Document.not_settled hpattern hopen (h.settled_of_located hne)
    refine ⟨?_, fun _ => hkeep (.inr hindex), fun _ => hkeep (.inr hindex), fun hsettled => ?_⟩
    · simp [Event.locates, hnone]
    · exact absurd (h.settled_of_origin hsettled)
        (Document.not_settled hpattern hopen)
  · have hevent : (Event.located found address).locates name = false := by
      simp [Event.locates, hname]
    obtain ⟨hle, hlocated, horigin, hsought⟩ := h.cons hevent (fun _ => by simp)
    exact ⟨hle, fun hne => hkeep (.inl (hlocated hne)), fun hs => hkeep (.inl (horigin hs)),
      hsought⟩

variable {target : Target} {settings : Settings}

theorem lasting (htrim : Text.trim target.image.version = target.image.version)
    (names : List String) :
    Document.Lasting target settings (Once target.image origin name) names where
  lookup _ _ h := h.cons rfl fun _ => by simp
  read _ _ _ h := h.cons rfl fun _ => by simp
  scan _ _ h := h.cons rfl fun _ => by simp
  sought sought _ s entry hpattern hopen h := by
    refine h.cons rfl fun hsettled heq => ?_
    cases heq
    exact Document.not_settled hpattern hopen (h.settled_of_origin hsettled)
  found _ _ _ _ _ _ hindex hentry hopen _ h := h.found htrim hindex hentry hopen

theorem enduring (htrim : Text.trim target.image.version = target.image.version)
    (evaluated : OffsetEntry → Prop) :
    Locator.Enduring target settings evaluated (Once target.image origin name) where
  store _ _ h := h.cons rfl fun _ => by simp
  markClean _ h := ⟨h.countP_le, h.settled_of_located, h.settled_of_origin, h.not_sought⟩
  lasting _ _ := lasting htrim _

end Once

namespace Locator

variable {target : Target} {settings : Settings}

/-- In a session that only resolves, each pattern is found by a search at most once, and one that
had a finding of the module's build at the start is never searched. -/
theorem run_searches_once (htrim : Text.trim target.image.version = target.image.version)
    {store : UnsteadyStore} {locator : Locator UnsteadyStore} {t : Trail UnsteadyStore}
    (hopen : openStore settings ⟨store, []⟩ = .ok locator t) {moves : List (Move UnsteadyStore)}
    (hmoves : ∀ move ∈ moves, move.Resolves) (name : String) :
    let log := (run target settings moves ⟨locator, t.log⟩).log
    log.countP (Event.locates name) ≤ 1
      ∧ (locator.document.Settled target.image name → .sought name ∉ log) := by
  have hlog : t.log = [.store .load, .store .lastModified] := by
    obtain ⟨_, -, -, -, -, rfl⟩ := openStore_eq_ok hopen
    rfl
  have hstart : Once target.image locator.document name ⟨locator.document, t.log⟩ := by
    rw [hlog]
    exact ⟨by simp [Event.locates], fun h => by simp [Event.locates] at h, id, by simp⟩
  have hkept := (Kept.opened hopen hstart).path (Once.enduring htrim _) (run_path hmoves)
  exact ⟨hkept.holds.countP_le, hkept.holds.not_sought⟩

/-- A finding that could not be saved is not searched for again. -/
theorem run_searches_once_refused :
    let target : Target :=
      ⟨⟨0x1000, 2, "1.0"⟩, ⟨fun _ _ => .ok [0x90, 0x0A], fun _ _ => none, 8⟩, false⟩
    let document : Document := ⟨[⟨"Code", "0A", none⟩], [⟨"Code", none⟩], false⟩
    let refusal : Nat → Option Error := fun n => if n = 3 ∨ n = 5 then some .noMatch else none
    let locator : Locator UnsteadyStore :=
      { store := { held := { bytes := document.toBytes }, refusal, calls := 2 }, document,
        loadedAt := .epoch }
    let log := (run target {} [.getAddress "Code", .getAddress "Code"]
      ⟨locator, [.store .load, .store .lastModified]⟩).log
    log.countP (· = .store .save) = 2 ∧ log.countP (Event.locates "Code") = 1 := by
  intro target document refusal locator log
  have hread : Document.ofBytes {} document.toBytes = .ok document :=
    Document.ofBytes_toBytes (by decide +kernel) (by decide)
  have hopen := openStore_fresh {} refusal rfl rfl hread
  have hmoves : ∀ move ∈ [Move.getAddress "Code", .getAddress "Code"],
      Move.Resolves (σ := UnsteadyStore) move := by simp [Move.Resolves]
  have htrim : Text.trim target.image.version = target.image.version := by decide
  have honce : log.countP (Event.locates "Code") ≤ 1 :=
    (run_searches_once htrim hopen hmoves "Code").1
  exact ⟨by decide +kernel, Nat.le_antisymm honce (by decide +kernel)⟩

end Locator

end Landmark
