import Mathlib.Tactic.Common
import Landmark.Memory.Buffer
import Landmark.Proofs.Failures
import Landmark.Proofs.Transparency

/-!
# The document in use is valid

Single changes of a document do not ask whether it stays valid, stores may fail at any call, and
others may put any bytes into them. Still the document in use is valid at all times: one that is
loaded is, an evaluation does not change what is checked, and an edit is taken back unless the
document that it comes to passes. So a name fails for want of an offset only if the document has
none of that name, and never because a pattern is none or a memory is missing
(`valid_throughout`).
-/

namespace Landmark

open Landmark.Task (Keeps)

/-- Whether a document has an offset of a trimmed name. -/
def Document.Defines (document : Document) (name : String) : Prop :=
  ∃ entry ∈ document.offsets, Text.trim entry.name = name

theorem Document.offset?_eq_none_iff {document : Document} {name : String} :
    document.offset? name = none ↔ ¬ document.Defines name := by
  simp [offset?, Defines]

namespace Locator

variable {σ α : Type}

/-- The document in use is valid, and the operators are those of the settings. -/
structure Valid (settings : Settings) (locator : Locator σ) : Prop where
  document : locator.document.validate settings.format = .ok ()
  offer : locator.scene.registry.SameOffer settings.operators

variable (target : Target) (settings : Settings)

theorem Valid.of_store {locator : Locator σ} (store : σ) (h : locator.Valid settings) :
    { locator with store }.Valid settings :=
  ⟨h.document, h.offer⟩

theorem evaluate_valid (formula : Formula) :
    Keeps (fun s : Trail (Locator σ) => s.state.Valid settings)
      (evaluate target settings formula) := by
  intro s h
  have hevaluated := evaluated_final target settings formula s
  exact ⟨(Document.validate_congr hevaluated.document.meaning_eq _).trans h.document,
    fun i => (hevaluated.offer i).trans (h.offer i)⟩

theorem remember_valid (name : String) (address : UInt64) :
    Keeps (fun s : Trail (Locator σ) => s.state.Valid settings) (remember name address) :=
  fun _ h => ⟨h.document, h.offer⟩

variable [Store σ]

theorem reload_valid :
    Keeps (fun s : Trail (Locator σ) => s.state.Valid settings) (reload settings) := by
  intro s h
  have hload := onStore_keeps (fun _ => Valid.of_store settings) (load settings.format) s h
  refine Task.final_bind_induction (P := fun t : Trail (Locator σ) => t.state.Valid settings)
    (fun e t herror => ?_) fun found t hok => ?_
  · rwa [Task.final_of_error herror] at hload
  · rw [Task.final_of_ok hok] at hload
    obtain ⟨u, hfound, -⟩ := Task.within_eq_ok hok
    exact ⟨validate_of_load hfound, hload.offer⟩

theorem refresh_valid :
    Keeps (fun s : Trail (Locator σ) => s.state.Valid settings) (refresh settings) :=
  refresh_keeps (fun _ => Valid.of_store settings) (reload_valid settings)

theorem saveAndReload_valid :
    Keeps (fun s : Trail (Locator σ) => s.state.Valid settings) (saveAndReload settings) :=
  saveAndReload_keeps (fun _ => Valid.of_store settings) (fun _ h => ⟨h.document, h.offer⟩)
    (reload_valid settings)

theorem getAddress_valid (name : String) :
    Keeps (fun s : Trail (Locator σ) => s.state.Valid settings)
      (getAddress target settings name) :=
  getAddress_keeps name (refresh_valid settings) (evaluate_valid target settings)
    (saveAndReload_valid settings) (remember_valid settings name)

/-- An edit may leave anything in the document until it is checked; what did not pass is not left
behind. -/
theorem edit_valid {e : Edit α} (he : e.Composed) :
    Keeps (fun s : Trail (Locator σ) => s.state.Valid settings) (edit settings e) := by
  intro s h
  -- A failure gives the document back, whichever stage it comes from; the operators it does not.
  have hrejected {error : Error} {t : Trail (Locator σ)}
      (htry : tryEdit settings e s = .error error t)
      (hoffer : t.state.scene.registry.SameOffer settings.operators) :
      ((edit settings e).final s).state.Valid settings := by
    rw [Task.final_of_error (edit_of_tryEdit_error htry)]
    exact ⟨h.document, hoffer⟩
  rcases hedit : e s.state.document with ⟨a, d⟩ | ⟨error, d⟩
  · have htry := tryEdit_eq settings hedit
    split_ifs at htry with hdirty
    · rcases hvalid : d.validate settings.format with fault | _ <;> rw [hvalid] at htry
      · exact hrejected (htry.trans (Task.bind_error rfl)) h.offer
      · have hsaved := saveAndReload_valid settings ⟨{ s.state with document := d }, s.log⟩
          ⟨hvalid, h.offer⟩
        replace htry := htry.trans (Task.bind_ok rfl)
        rcases hsave : saveAndReload settings ⟨{ s.state with document := d }, s.log⟩
          with ⟨_, t⟩ | ⟨error, t⟩
        · rw [Task.final_of_ok hsave] at hsaved
          rw [Task.final_of_ok (edit_of_tryEdit_ok (htry.trans ((Task.bind_ok hsave).trans rfl)))]
          exact hsaved
        · rw [Task.final_of_error hsave] at hsaved
          exact hrejected (htry.trans (Task.bind_error hsave)) hsaved.offer
    · rw [Task.final_of_ok (edit_of_tryEdit_ok htry),
        he.eq_of_unmarked hedit (Bool.not_eq_true _ ▸ hdirty)]
      exact h
  · have honDocument := onDocument_eq e s
    rw [hedit] at honDocument
    exact hrejected (Task.bind_error honDocument) h.offer

theorem Move.apply_valid {move : Move σ} (h : move.Allowed fun _ => True) {s : Trail (Locator σ)}
    (hs : s.state.Valid settings) : (move.apply target settings s).state.Valid settings := by
  cases move with
  | getAddress name => exact getAddress_valid target settings name s hs
  | reset => exact ⟨hs.document, hs.offer⟩
  | reload => exact reload_valid settings s hs
  | edit e => exact edit_valid settings h s hs
  | outside change => exact ⟨hs.document, hs.offer⟩

variable {target settings}

theorem openStore_valid {s t : Trail σ} {locator : Locator σ}
    (h : openStore settings s = .ok locator t) : locator.Valid settings := by
  obtain ⟨found, u, hload, h⟩ := Task.bind_eq_ok h
  cases h
  exact ⟨validate_of_load hload, fun _ => rfl⟩

/-! ## Failures -/

/-- The calls of the store succeed that come before and after the evaluation of a name: `u` is left
when the store was asked for a later document, and what the evaluation finds is saved. -/
structure Served (target : Target) (settings : Settings) (name : String)
    (s u : Trail (Locator σ)) : Prop where
  refreshed : refresh settings s = .ok () u
  saved : ∀ {entry : OffsetEntry} {address : UInt64} {v : Trail (Locator σ)},
    u.state.document.offset? name = some entry →
      evaluate target settings entry.formula u = .ok address v →
        v.state.document.dirty = true → ∃ w, saveAndReload settings v = .ok () w

/-- How a resolution may fail. -/
inductive ResolveFails (target : Target) (settings : Settings) (name : String)
    (u : Trail (Locator σ)) : Error → Prop
  | undefined :
    u.state.document.offset? name = none →
      ResolveFails target settings name u (.unresolvedOffset name)
  | evaluation {e : Error} :
    e.OfEvaluation target.memory → ResolveFails target settings name u e
  | unsaved {entry : OffsetEntry} {address : UInt64} {e : Error} {v w : Trail (Locator σ)} :
    u.state.document.offset? name = some entry →
      evaluate target settings entry.formula u = .ok address v → v.state.document.dirty = true →
        saveAndReload settings v = .error e w → ResolveFails target settings name u e

theorem resolve_fails {name : String} {u t : Trail (Locator σ)} {e : Error}
    (h : u.state.Valid settings) (hbuiltin : settings.operators.IsBuiltin)
    (hfail : resolve target settings name u = .error e t) :
    ResolveFails target settings name u e := by
  rcases hentry : u.state.document.offset? name with _ | entry
  · rw [resolve_of_offset?_eq_none target settings hentry] at hfail
    cases hfail
    exact .undefined hentry
  · rw [resolve_of_offset?_eq_some target settings hentry] at hfail
    have hevaluate := Task.eq_ofExcept (evaluate target settings entry.formula) u
    rw [← answerOf_of_offset?_eq_some target settings hentry] at hevaluate
    rcases hanswer : u.state.answerOf target settings name with e' | address <;>
      rw [hanswer] at hevaluate <;> simp only [hanswer] at hfail
    · cases hfail
      obtain ⟨hnone, -⟩ | hevaluation :=
        answerOf_fails h.document (hbuiltin.of_sameOffer h.offer) hanswer
      · rw [hentry] at hnone
        cases hnone
      · exact .evaluation hevaluation
    · split_ifs at hfail with hdirty
      · obtain hsave | ⟨_, v, -, hremember⟩ := Task.bind_eq_error hfail
        · exact .unsaved hentry hevaluate hdirty hsave
        · cases hremember
      · cases hfail

theorem getAddress_fails {name : String} {s t : Trail (Locator σ)} {e : Error}
    (h : s.state.Valid settings) (hbuiltin : settings.operators.IsBuiltin)
    (hfail : getAddress target settings name s = .error e t) :
    (∃ u, refresh settings s = .error e u)
      ∨ ∃ u, refresh settings s = .ok () u ∧ ResolveFails target settings name u e := by
  rcases hname : s.state.addresses.get? name with _ | address
  · rw [getAddress_of_unknown target settings hname] at hfail
    obtain hrefresh | ⟨_, u, hrefresh, hresolve⟩ := Task.bind_eq_error hfail
    · exact .inl ⟨t, hrefresh⟩
    · have hu := refresh_valid settings s h
      rw [Task.final_of_ok hrefresh] at hu
      exact .inr ⟨u, hrefresh, resolve_fails hu hbuiltin hresolve⟩
  · rw [getAddress_of_known target settings hname] at hfail
    cases hfail

/-- A failure that a valid document and the built-in operators leave out is the store's own or the
memory's. -/
theorem raises_of_getAddress {name : String} {s t : Trail (Locator σ)} {e : Error}
    (h : s.state.Valid settings) (hbuiltin : settings.operators.IsBuiltin)
    (hfail : getAddress target settings name s = .error e t)
    (he : e = .missingMemory ∨ ∃ fault, e = .invalidPattern fault) :
    Store.Raises σ e ∨ target.memory.Raises e := by
  have hstore (h : Store.Raises σ e ∨ ∃ fault, e = .invalidDocument fault) :
      Store.Raises σ e ∨ target.memory.Raises e := by
    obtain hraised | ⟨fault, rfl⟩ := h
    · exact .inl hraised
    · simp at he
  obtain ⟨u, hrefresh⟩ | ⟨u, -, hresolve⟩ := getAddress_fails h hbuiltin hfail
  · exact hstore (refresh_fails hrefresh)
  · cases hresolve with
    | undefined _ => simp at he
    | evaluation hevaluation =>
      cases hevaluation with
      | raised hraised => exact .inr hraised
      | _ => simp at he
    | unsaved _ _ _ hsave => exact hstore (saveAndReload_fails hsave)

theorem getAddress_of_not_defines {name : String} {s u : Trail (Locator σ)}
    (hname : s.state.addresses.get? name = none) (hrefresh : refresh settings s = .ok () u)
    (h : ¬ u.state.document.Defines name) :
    getAddress target settings name s = .error (.unresolvedOffset name) u := by
  rw [getAddress_of_unknown target settings hname, Task.bind_ok hrefresh]
  exact resolve_of_offset?_eq_none target settings (Document.offset?_eq_none_iff.2 h)

theorem not_defines_of_getAddress {name wanted : String} {s t u : Trail (Locator σ)}
    (h : s.state.Valid settings) (hbuiltin : settings.operators.IsBuiltin)
    (hserved : Served target settings name s u)
    (hfail : getAddress target settings name s = .error (.unresolvedOffset wanted) t) :
    ¬ u.state.document.Defines name ∨ target.memory.Raises (.unresolvedOffset wanted) := by
  obtain ⟨v, hrefresh⟩ | ⟨v, hrefresh, hresolve⟩ := getAddress_fails h hbuiltin hfail
  · cases hrefresh.symm.trans hserved.refreshed
  · cases hrefresh.symm.trans hserved.refreshed
    cases hresolve with
    | undefined hnone => exact .inl (Document.offset?_eq_none_iff.1 hnone)
    | evaluation hevaluation =>
      cases hevaluation with
      | raised hraised => exact .inr hraised
    | unsaved hentry hevaluate hdirty hsave =>
      obtain ⟨w, hsaved⟩ := hserved.saved hentry hevaluate hdirty
      cases hsave.symm.trans hsaved

/-- The document in use is valid after any calls with composed edits, over any store, and whatever
others do to the store in between. With the built-in operators no name fails then because a pattern
is none or a memory is missing, unless the store or the memory itself fails so. Where no call of the
store fails, a name that is not known yet fails for want of an offset if the document has none of
that name, and only then, unless the memory itself fails so. -/
theorem valid_throughout {s₀ t : Trail σ} {locator : Locator σ}
    (hopen : openStore settings s₀ = .ok locator t) {steps : List (Target × Move σ)}
    (hsteps : ∀ step ∈ steps, step.2.Allowed fun _ => True) :
    let s := course settings steps ⟨locator, t.log⟩
    s.state.document.validate settings.format = .ok ()
      ∧ (settings.operators.IsBuiltin → ∀ (target : Target) (name : String),
        (∀ e u, getAddress target settings name s = .error e u →
          (e = .missingMemory ∨ ∃ fault, e = .invalidPattern fault) →
            Store.Raises σ e ∨ target.memory.Raises e)
        ∧ ∀ u, s.state.addresses.get? name = none → Served target settings name s u →
          (¬ u.state.document.Defines name →
            (getAddress target settings name).answer s = .error (.unresolvedOffset name))
          ∧ ∀ wanted,
            (getAddress target settings name).answer s = .error (.unresolvedOffset wanted) →
              ¬ u.state.document.Defines name
                ∨ target.memory.Raises (.unresolvedOffset wanted)) := by
  intro s
  have hvalid : s.state.Valid settings :=
    course_induction (I := fun s => s.state.Valid settings) (openStore_valid hopen)
      fun step hstep s hs => Move.apply_valid step.1 settings (hsteps step hstep) hs
  refine ⟨hvalid.document, fun hbuiltin target name =>
    ⟨fun e u hfail he => raises_of_getAddress hvalid hbuiltin hfail he,
      fun u hname hserved => ⟨fun h => ?_, fun wanted hanswer => ?_⟩⟩⟩
  · rw [Task.answer, getAddress_of_not_defines hname hserved.refreshed h]
  · have hfail := Task.eq_ofExcept (getAddress target settings name) s
    rw [hanswer] at hfail
    exact not_defines_of_getAddress hvalid hbuiltin hserved hfail

end Locator

/-! ## Stores and memories that fail in their own ways only -/

theorem Buffer.eq_readFailed_of_raises {buffer : Buffer} {e : Error} (h : buffer.memory.Raises e) :
    ∃ address fault, e = .readFailed address fault := by
  obtain ⟨address, size, h⟩ := h
  simp only [memory] at h
  split at h <;> cases h
  exact ⟨address, _, rfl⟩

theorem FaultyStore.eq_storage_of_raises {e : Error} (h : Store.Raises FaultyStore e) :
    ∃ fault, e = .storage fault := by
  have hguarded {α : Type} {refused : Refusals → Bool} {call : String}
      {action : EStateM Error HeldStore α} (hok : ∀ held, ∃ a held', action held = .ok a held')
      {store store' : FaultyStore} (h : guarded refused call action store = .error e store') :
      ∃ fault, e = .storage fault := by
    unfold guarded at h
    split_ifs at h
    · cases h
      exact ⟨_, rfl⟩
    · obtain ⟨a, held, haction⟩ := hok store.inner
      rw [haction] at h
      cases h
  obtain ⟨store, store', h | h | ⟨bytes, h⟩⟩ := h
  · exact hguarded (fun _ => ⟨_, _, rfl⟩) h
  · exact hguarded (fun _ => ⟨_, _, rfl⟩) h
  · exact hguarded (fun _ => ⟨_, _, rfl⟩) h

namespace Locator

/-- A store that was just made refuses nothing. -/
theorem openStore_faulty {settings : Settings} {content : ByteArray} {document : Document}
    (hread : Document.ofBytes settings.format content = .ok document) :
    let store : FaultyStore := { inner := { bytes := content } }
    openStore settings ⟨store, []⟩
      = .ok { store, document, loadedAt := .epoch, registry := settings.registry }
        ⟨store, [.store .load, .store .lastModified]⟩ := by
  intro store
  have hload : load settings.format (⟨store, []⟩ : Trail FaultyStore)
      = (Task.ofExcept (Document.ofBytes settings.format content) >>= fun document =>
        pure (document, Instant.epoch)) ⟨store, [.store .load, .store .lastModified]⟩ := rfl
  rw [hread] at hload
  exact (Task.bind_ok hload).trans rfl

/-- A finding that could not be saved stays in the document in use, and an edit that would have
added a pattern without a byte is taken back. -/
theorem valid_throughout_refused :
    let buffer : Buffer := ⟨0x1000, [0x90, 0x0A]⟩
    let target : Target := ⟨⟨0x1000, 2, "1.0"⟩, buffer.memory, true⟩
    let document : Document := ⟨[⟨"Code", "0A", none⟩], [⟨"Code", none⟩], false⟩
    let steps : List (Target × Move FaultyStore) :=
      [(target, .outside fun store => { store with refusals := ⟨false, false, true⟩ }),
        (target, .getAddress "Code"), (target, .edit (Edit.addPattern ⟨"Data", "?", none⟩))]
    ∃ locator t, openStore {} ⟨{ inner := { bytes := document.toBytes } }, []⟩ = .ok locator t
      ∧ let s := course {} steps ⟨locator, t.log⟩
        s.state.document.dirty = true ∧ s.state.document.validate {} = .ok ()
          ∧ (∀ name e u, getAddress target {} name s = .error e u →
            e ≠ .missingMemory ∧ ∀ fault, e ≠ .invalidPattern fault)
          ∧ (getAddress target {} "Data").answer s = .error (.unresolvedOffset "Data") := by
  intro buffer target document steps
  have hread : Document.ofBytes ({} : Settings).format document.toBytes = .ok document :=
    Document.ofBytes_toBytes (by decide +kernel) (by decide)
  have hopen := openStore_faulty hread
  have hsteps : ∀ step ∈ steps, step.2.Allowed fun _ => True := by
    simp [steps, Move.Allowed, Edit.Composed.addPattern]
  obtain ⟨hvalid, hfails⟩ := valid_throughout hopen hsteps
  refine ⟨_, _, hopen, by decide +kernel, hvalid, fun name e u hfail => ?_, ?_⟩
  · have hraised := (hfails Registry.isBuiltin_standard target name).1 e u hfail
    have hown (h : Store.Raises FaultyStore e ∨ target.memory.Raises e) :
        e ≠ .missingMemory ∧ ∀ fault, e ≠ .invalidPattern fault := by
      obtain h | h := h
      · obtain ⟨fault, rfl⟩ := FaultyStore.eq_storage_of_raises h
        simp
      · obtain ⟨address, fault, rfl⟩ := Buffer.eq_readFailed_of_raises h
        simp
    exact ⟨fun h => (hown (hraised (.inl h))).1 h,
      fun fault h => (hown (hraised (.inr ⟨fault, h⟩))).2 fault h⟩
  · let s : Trail (Locator FaultyStore) := course {} steps
      ⟨{ store := { inner := { bytes := document.toBytes } }, document, loadedAt := .epoch },
        [.store .load, .store .lastModified]⟩
    have hrefresh := Task.eq_ofExcept (refresh {}) s
    have hanswer : (refresh {}).answer s = .ok () := by decide +kernel
    rw [hanswer] at hrefresh
    have hnone : ((refresh {}).final s).state.document.offset? "Data" = none := by decide +kernel
    have hserved : Served target {} "Data" s ((refresh {}).final s) :=
      ⟨hrefresh, fun hentry => by rw [hnone] at hentry; cases hentry⟩
    have hunknown : s.state.addresses.get? "Data" = none := by decide +kernel
    exact ((hfails Registry.isBuiltin_standard target "Data").2 _ hunknown hserved).1
      (Document.offset?_eq_none_iff.1 hnone)

end Locator

end Landmark
