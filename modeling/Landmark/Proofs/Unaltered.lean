import Mathlib.Tactic.Common
import Landmark.Proofs.FirstMatches
import Landmark.Proofs.Undisturbed

/-!
# Resolving alters nothing but findings

In a session that only resolves, the document in use and the stored one both descend from the
document at the start: names, texts, offsets and order are the same, and an entry has the finding it
had, or else that of the first match in the module, if an evaluated offset refers to it. Only an
evaluation that finds something makes the document one that is saved, so the bytes in the store are
rewritten only when a search has found something since they were last loaded or saved
(`run_unaltered`).
-/

namespace Landmark

namespace Document

/-- Whether a document is another one but for findings of first matches, of named patterns only. -/
structure Descends (target : Target) (settings : Settings) (origin : Document)
    (referred : String → Prop) (document : Document) : Prop where
  definitions_eq : document.definitions = origin.definitions
  cached : ∀ (index : Nat) (entry before : PatternEntry),
    document.patterns[index]? = some entry → origin.patterns[index]? = some before →
      entry.cached = before.cached
        ∨ referred (Text.trim entry.name) ∧ ∃ offset, entry.FirstMatch target settings offset
          ∧ entry.cached = some ⟨target.image.version, Int64.ofNat offset⟩

namespace Descends

variable {target : Target} {settings : Settings} {origin document : Document}
  {referred : String → Prop}

theorem refl : Descends target settings origin referred origin := by
  refine ⟨rfl, fun index entry before hentry hbefore => .inl ?_⟩
  rw [hentry] at hbefore
  cases hbefore
  rfl

theorem keepFinding (h : Descends target settings origin referred document)
    (hmatcher : settings.matcher = none) {index : Nat} {entry : PatternEntry} {address : UInt64}
    (hentry : document.patterns[index]? = some entry) (hreferred : referred (Text.trim entry.name))
    (hsought : entry.sought target settings = .ok address) :
    Descends target settings origin referred
      (document.keepFinding index entry (Finding.capture address target.image)) := by
  refine ⟨?_, fun i other before hother hbefore => ?_⟩
  · rw [← h.definitions_eq, definitions, definitions]
    exact congrArg (·, document.offsets) (map_set_of_getElem? hentry rfl)
  · by_cases hi : index = i
    · subst hi
      have hlt := (List.getElem?_eq_some_iff.1 hentry).1
      obtain ⟨offset, hmatch, rfl⟩ := PatternEntry.exists_firstMatch hmatcher hsought
      simp only [Document.keepFinding, List.getElem?_set_self hlt, Option.some.injEq] at hother
      subst hother
      exact .inr ⟨hreferred, offset, hmatch, congrArg some (Finding.capture_base_add _ _)⟩
    · simp only [Document.keepFinding, List.getElem?_set_ne hi] at hother
      exact h.cached i other before hother hbefore

theorem lasting (hmatcher : settings.matcher = none) {names : List String}
    (hreferred : ∀ name ∈ names, referred name) :
    Lasting target settings (fun s => Descends target settings origin referred s.state) names where
  lookup _ _ h := h
  read _ _ _ h := h
  scan _ _ h := h
  sought _ _ _ _ _ _ h := h
  found name hname s index entry address hindex hentry _ hsought h := by
    have hpattern : s.state.pattern? name = some entry := by
      rw [pattern?_eq, hindex, Option.bind_some, hentry]
    have heq : Text.trim entry.name = name := by simpa using List.find?_some hpattern
    exact h.keepFinding hmatcher hentry (heq ▸ hreferred name hname) hsought

end Descends

end Document

namespace Event

/-- Whether an event is a call of a store. -/
def isStoreCall : Event → Bool
  | .store _ => true
  | _ => false

/-- Whether a search has found something since a store last gave or took a document, in a log with
the newest event first. Calls that the store has refused do not count. -/
def Unsaved (refusal : Nat → Option Error) : List Event → Prop
  | [] => False
  | .located _ _ :: _ => True
  | .store call :: earlier =>
    (call = .lastModified ∨ refusal (earlier.countP isStoreCall) ≠ none) ∧ Unsaved refusal earlier
  | _ :: earlier => Unsaved refusal earlier

end Event

namespace Locator

open Event (isStoreCall Unsaved)

variable {target : Target} {settings : Settings} {refusal : Nat → Option Error}
  {evaluated : OffsetEntry → Prop} {I : Trail Document → Prop}
  {s t : Trail (Locator UnsteadyStore)}

/-- How the log accounts for the calls of the store and for unsaved findings. -/
structure Accounted (refusal : Nat → Option Error) (s : Trail (Locator UnsteadyStore)) : Prop where
  refusal_eq : s.state.store.refusal = refusal
  calls_eq : s.state.store.calls = s.log.countP isStoreCall
  unsaved : s.state.document.dirty = true → Unsaved refusal s.log

namespace Accounted

theorem refused_eq (h : Accounted refusal s) :
    s.state.store.refused = refusal (s.log.countP isStoreCall) := by
  rw [UnsteadyStore.refused, h.refusal_eq, h.calls_eq]

theorem lasting (target : Target) (settings : Settings) (n : Nat) (names : List String) :
    Document.Lasting target settings (fun d => d.log.countP isStoreCall = n
      ∧ (d.state.dirty = true → Unsaved refusal d.log)) names where
  lookup _ _ h := ⟨by simpa [isStoreCall] using h.1, h.2⟩
  read _ _ _ h := ⟨by simpa [isStoreCall] using h.1, h.2⟩
  scan _ _ h := ⟨by simpa [isStoreCall] using h.1, h.2⟩
  sought _ _ _ _ _ _ h := ⟨by simpa [isStoreCall] using h.1, h.2⟩
  found _ _ _ _ _ _ _ _ _ _ h := ⟨by simpa [isStoreCall] using h.1, fun _ => trivial⟩

theorem phase (h : Accounted refusal s) (hkept : Kept settings I s)
    (hphase : Phase target settings evaluated s t) : Accounted refusal t := by
  have hcalls (call : StoreCall) : s.state.store.calls + 1
      = (Event.store call :: s.log).countP isStoreCall := by
    rw [h.calls_eq, List.countP_cons_of_pos rfl]
  cases hphase with
  | asked call hcall =>
    refine ⟨h.refusal_eq, hcalls call, fun hdirty => ⟨?_, h.unsaved hdirty⟩⟩
    rwa [h.refused_eq] at hcall
  | unreadable hread =>
    obtain ⟨base, -, hbase, -⟩ := hkept.exists_base
    rw [hread] at hbase
    cases hbase
  | took _ hread =>
    refine ⟨h.refusal_eq, hcalls .load, fun hdirty => ?_⟩
    have hclean := (Document.of_ofBytes_eq_ok hread).2.2
    exact absurd (hclean.symm.trans hdirty) Bool.false_ne_true
  | gave _ _ =>
    exact ⟨h.refusal_eq, hcalls .save, fun hdirty => absurd hdirty Bool.false_ne_true⟩
  | @evaluated entry _ _ =>
    have hlog := evaluate_keeps (σ := UnsteadyStore)
      (lasting target settings (s.log.countP isStoreCall) entry.formula.references)
      (s := s) ⟨rfl, h.unsaved⟩
    have hev := evaluated_final target settings entry.formula s
    refine ⟨?_, ?_, hlog.2⟩
    · rw [hev.store_eq]
      exact h.refusal_eq
    · rw [hev.store_eq, h.calls_eq]
      exact hlog.1.symm
  | named _ => exact ⟨h.refusal_eq, h.calls_eq, h.unsaved⟩

end Accounted

theorem Phase.log_suffix (h : Phase target settings evaluated s t) : s.log <:+ t.log := by
  cases h with
  | asked _ _ | unreadable _ | took _ _ | gave _ _ => exact List.suffix_cons _ _
  | @evaluated entry _ _ =>
    have hlasting : Document.Lasting target settings (fun d => s.log <:+ d.log)
        entry.formula.references :=
      ⟨fun _ _ h => h.trans (List.suffix_cons _ _), fun _ _ _ h => h.trans (List.suffix_cons _ _),
        fun _ _ h => h.trans (List.suffix_cons _ _),
        fun _ _ _ _ _ _ h => h.trans (List.suffix_cons _ _),
        fun _ _ _ _ _ _ _ _ _ _ h => h.trans (List.suffix_cons _ _)⟩
    exact evaluate_keeps (σ := UnsteadyStore) hlasting List.suffix_rfl
  | named _ => exact List.suffix_rfl

/-- Whether the store has taken a document between two states, after a search had found something
that was not saved. -/
def SavesFound (refusal : Nat → Option Error) (s t : Trail (Locator UnsteadyStore)) : Prop :=
  ∃ log, s.log <:+ log ∧ .store .save :: log <:+ t.log
    ∧ refusal (log.countP isStoreCall) = none ∧ Unsaved refusal log

theorem held_eq_or_savesFound (hkept : Kept settings (fun _ => True) s) (h : Accounted refusal s)
    (hpath : Path target settings evaluated s t) :
    Accounted refusal t ∧ (t.state.store.held = s.state.store.held ∨ SavesFound refusal s t) := by
  suffices Kept settings (fun _ => True) t ∧ Accounted refusal t ∧ s.log <:+ t.log
      ∧ (t.state.store.held = s.state.store.held ∨ SavesFound refusal s t) from
    ⟨this.2.1, this.2.2.2⟩
  induction hpath with
  | refl => exact ⟨hkept, h, List.suffix_rfl, .inl rfl⟩
  | @tail u v _ hphase ih =>
    obtain ⟨hku, hu, hsuffix, hheld⟩ := ih
    refine ⟨hku.phase enduring_trivial hphase, hu.phase hku hphase,
      hsuffix.trans hphase.log_suffix, ?_⟩
    have hbefore : SavesFound refusal s u → SavesFound refusal s v := by
      rintro ⟨log, hlog, hsave, hgiven⟩
      exact ⟨log, hlog, hsave.trans hphase.log_suffix, hgiven⟩
    cases hphase with
    | asked _ _ | unreadable _ | took _ _ | named _ => exact hheld.imp_right hbefore
    | @evaluated entry _ _ =>
      have hev := evaluated_final target settings entry.formula u
      rw [hev.store_eq]
      exact hheld.imp_right hbefore
    | gave hrefused hdirty =>
      rw [hu.refused_eq] at hrefused
      exact .inr ⟨u.log, hsuffix, List.suffix_rfl, hrefused, hu.unsaved hdirty⟩

theorem Accounted.opened {held : HeldStore} {locator : Locator UnsteadyStore}
    {u : Trail UnsteadyStore}
    (hopen : openStore settings ⟨({ held, refusal } : UnsteadyStore), []⟩ = .ok locator u) :
    Accounted refusal ⟨locator, u.log⟩ := by
  obtain ⟨document, hread, -, -, rfl, rfl⟩ := openStore_eq_ok hopen
  refine ⟨rfl, rfl, fun hdirty => ?_⟩
  have hclean := (Document.of_ofBytes_eq_ok hread).2.2
  exact absurd (hclean.symm.trans hdirty) Bool.false_ne_true

theorem reload_held (settings : Settings) (s : Trail (Locator UnsteadyStore)) :
    ((reload settings).final s).state.store.held = s.state.store.held := by
  have hends := reload_ends settings s
  unfold Task.final
  generalize reload settings s = result at hends ⊢
  cases hends <;> rfl

theorem refresh_held (settings : Settings) (s : Trail (Locator UnsteadyStore)) :
    ((refresh settings).final s).state.store.held = s.state.store.held := by
  rcases hrefused : s.state.store.refused with _ | e
  · have heq := refresh_given settings hrefused
    rw [Task.final, heq]
    split_ifs
    · exact reload_held settings _
    · rfl
  · rw [Task.final_of_error (refresh_refused settings hrefused)]
    rfl

/-- A call whose evaluation fails is answered with that failure, and nothing is saved. -/
theorem getAddress_of_answerOf_error {name : String} {u : Trail (Locator UnsteadyStore)} {e : Error}
    (hname : s.state.addresses.get? name = none) (hrefresh : refresh settings s = .ok () u)
    (hanswer : u.state.answerOf target settings name = .error e) :
    ∃ after, getAddress target settings name s = .error e after
      ∧ after.state.store.held = s.state.store.held := by
  have hheld := refresh_held settings s
  rw [Task.final_of_ok hrefresh] at hheld
  rw [getAddress_of_unknown target settings hname, Task.bind_ok hrefresh]
  rcases hentry : u.state.document.offset? name with _ | entry
  · rw [answerOf, hentry] at hanswer
    cases hanswer
    exact ⟨u, resolve_of_offset?_eq_none target settings hentry, hheld⟩
  · have hresolve := resolve_of_offset?_eq_some target settings hentry
    rw [hanswer] at hresolve
    refine ⟨_, hresolve, ?_⟩
    rw [(evaluated_final target settings entry.formula u).store_eq]
    exact hheld

/-- The names of the patterns that the offsets refer to that are evaluated in a session. -/
def ReferredIn (target : Target) (settings : Settings) (moves : List (Move UnsteadyStore))
    (s : Trail (Locator UnsteadyStore)) (name : String) : Prop :=
  ∃ entry, EvaluatedIn target settings moves s entry ∧ name ∈ entry.formula.references

theorem enduring_descends (hmatcher : settings.matcher = none) (origin : Document)
    (moves : List (Move UnsteadyStore)) (s : Trail (Locator UnsteadyStore)) :
    Enduring target settings (EvaluatedIn target settings moves s) fun d =>
      Document.Descends target settings origin (ReferredIn target settings moves s) d.state where
  store _ _ h := h
  markClean _ h := ⟨h.definitions_eq, h.cached⟩
  lasting entry hentry := Document.Descends.lasting hmatcher fun _ hname => ⟨entry, hentry, hname⟩

/-- In a session that only resolves, the documents in use and in the store are the one at the start
but for findings of first matches. A call whose evaluation fails leaves the store as it is, and one
that succeeds rewrites it only if a search has found something since the last load or save. -/
theorem run_unaltered (hmatcher : settings.matcher = none) {held : HeldStore}
    {locator : Locator UnsteadyStore} {u : Trail UnsteadyStore}
    (hopen : openStore settings ⟨({ held, refusal } : UnsteadyStore), []⟩ = .ok locator u)
    {moves : List (Move UnsteadyStore)} (hmoves : ∀ move ∈ moves, move.Resolves) :
    let start : Trail (Locator UnsteadyStore) := ⟨locator, u.log⟩
    let s := run target settings moves start
    let Unaltered := Document.Descends target settings locator.document
      (ReferredIn target settings moves start)
    (Unaltered s.state.document
        ∧ ∃ base, Document.ofBytes settings.format s.state.store.held.bytes = .ok base
          ∧ Unaltered base)
      ∧ (∀ name e v, s.state.addresses.get? name = none → refresh settings s = .ok () v →
          v.state.answerOf target settings name = .error e →
            ∃ after, getAddress target settings name s = .error e after
              ∧ after.state.store.held = s.state.store.held)
      ∧ ∀ name address after, getAddress target settings name s = .ok address after →
          after.state.store.held ≠ s.state.store.held → SavesFound refusal s after := by
  intro start s Unaltered
  have hpath : Path target settings (EvaluatedIn target settings moves start) start s :=
    run_path hmoves
  refine ⟨?_, fun name e v hname hrefresh hanswer => ?_, fun name address after hget hne => ?_⟩
  · have hstart : Kept settings (fun d => Unaltered d.state) start :=
      .opened hopen Document.Descends.refl
    have hkept := hstart.path (enduring_descends hmatcher locator.document moves start) hpath
    obtain ⟨base, _, hread, hbase, -⟩ := hkept.exists_base
    exact ⟨hkept.holds, base, hread, hbase⟩
  · exact getAddress_of_answerOf_error hname hrefresh hanswer
  · have hstart : Kept settings (fun _ => True) start := .opened hopen trivial
    have haccounted := (held_eq_or_savesFound hstart (.opened hopen) hpath).1
    have hcall : Path target settings (Evaluates settings s name) s
        ((getAddress target settings name).final s) := getAddress_path name
    rw [Task.final_of_ok hget] at hcall
    exact (held_eq_or_savesFound (hstart.path enduring_trivial hpath) haccounted
      hcall).2.resolve_left hne

/-- A finding that could not be saved, in a document that has one of another build. -/
theorem run_unaltered_refused :
    let target : Target :=
      ⟨⟨0x1000, 2, "1.0"⟩, ⟨fun _ _ => .ok [0x90, 0x0A], fun _ _ => none, 8⟩, false⟩
    let document : Document := ⟨[⟨"Code", "0A", some ⟨"0.9", 7⟩⟩], [⟨"Code", none⟩], false⟩
    let refusal : Nat → Option Error := fun n => if n = 3 then some .noMatch else none
    let start : Trail (Locator UnsteadyStore) :=
      ⟨{ store := { held := { bytes := document.toBytes }, refusal, calls := 2 }, document,
         loadedAt := .epoch }, [.store .load, .store .lastModified]⟩
    let s := run target {} [.getAddress "Code"] start
    s.state.document.patterns = [⟨"Code", "0A", some ⟨"1.0", 1⟩⟩]
      ∧ Document.Descends target {} document (ReferredIn target {} [.getAddress "Code"] start)
        s.state.document := by
  intro target document refusal start s
  have hread : Document.ofBytes {} document.toBytes = .ok document :=
    Document.ofBytes_toBytes (by decide +kernel) (by decide)
  have hopen := openStore_fresh {} refusal rfl rfl hread
  have hmoves : ∀ move ∈ [Move.getAddress "Code"], Move.Resolves (σ := UnsteadyStore) move := by
    simp [Move.Resolves]
  exact ⟨by decide +kernel, (run_unaltered rfl hopen hmoves).1.1⟩

end Locator

end Landmark
