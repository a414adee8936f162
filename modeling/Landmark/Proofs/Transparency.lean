import Mathlib.Tactic.Common
import Landmark.Proofs.Findings
import Landmark.Proofs.Freshness

/-!
# Findings change no answer

Findings are sound if those of the module's build are what a search of the module finds. A document
with sound findings means what it does without any (`Document.Sound.meaning_forgotten`), so a
locator that is opened over it answers the same. What lookups add is sound, and so is what a call
leaves in use and in the store (`openAndGet_forgotten`).
-/

namespace Landmark

open Landmark.Task (Keeps)
open Dependable (bytes modified loaded saved)

namespace Document

variable {target : Target} {settings : Settings} {document : Document}

/-- The document without its findings. -/
def forgotten (document : Document) : Document :=
  { document with patterns := document.patterns.map fun entry => { entry with cached := none } }

/-- Whether each finding of the module's build is where a search of the module finds its pattern.
Findings of other builds may be anything. -/
def Sound (target : Target) (settings : Settings) (document : Document) : Prop :=
  ∀ entry ∈ document.patterns, ∀ finding ∈ entry.cached, finding.isCurrent target.image = true →
    ∃ address, entry.sought target settings = .ok address
      ∧ finding.value = target.image.offsetOf address

theorem Sound.answer_eq (h : document.Sound target settings) {entry : PatternEntry}
    (hentry : entry ∈ document.patterns) :
    entry.answer target settings = entry.sought target settings := by
  rcases hcached : entry.cached with _ | finding
  · simp [PatternEntry.answer, hcached]
  · by_cases hcurrent : finding.isCurrent target.image
    · obtain ⟨address, hsought, hvalue⟩ := h entry hentry finding hcached hcurrent
      simp [PatternEntry.answer, hcached, Finding.address?, hcurrent, hsought, hvalue,
        Image.addressAt_offsetOf]
    · simp [PatternEntry.answer, hcached, Finding.address?, hcurrent]

theorem Sound.meaning_forgotten (h : document.Sound target settings) :
    document.forgotten.meaning target settings = document.meaning target settings := by
  rw [meaning, meaning, forgotten, List.map_map]
  refine congrArg (·, document.offsets) (List.map_congr_left fun entry hentry => ?_)
  rw [PatternEntry.meaning, h.answer_eq hentry]
  rfl

theorem Sound.keepFinding (h : document.Sound target settings) {index : Nat} {entry : PatternEntry}
    {address : UInt64} (hsought : entry.sought target settings = .ok address) :
    (document.keepFinding index entry (Finding.capture address target.image)).Sound target
      settings := by
  intro other hother finding hfinding hcurrent
  rcases List.mem_or_eq_of_mem_set hother with hmem | rfl
  · exact h other hmem finding hfinding hcurrent
  · cases hfinding
    exact ⟨address, hsought, rfl⟩

theorem sound_lasting (target : Target) (settings : Settings) (names : List String) :
    Lasting target settings (fun s => s.state.Sound target settings) names where
  lookup _ _ h := h
  read _ _ _ h := h
  scan _ _ h := h
  sought _ _ _ _ _ _ h := h
  found _ _ _ _ _ _ _ _ _ hsought h := h.keepFinding hsought

theorem resolve_congr {document' : Document}
    (h : document.meaning target settings = document'.meaning target settings) (name : String) :
    document.resolve target settings name = document'.resolve target settings name := by
  let opened (document : Document) : Locator Unit :=
    ⟨(), document, .epoch, {}, settings.registry⟩
  have hmeaning : (opened document).document.meaning target settings
      = (opened document').document.meaning target settings := h
  exact Locator.answerOf_congr hmeaning (fun _ => rfl) name

/-- A document without findings is read back from its stored form if the document is one that was
read. -/
theorem Sound.ofBytes_forgotten {format : SignatureFormat} {content : ByteArray}
    (h : document.Sound target settings) (hread : ofBytes format content = .ok document) :
    ofBytes format document.forgotten.toBytes = .ok document.forgotten := by
  obtain ⟨hvalid, hshallow, hclean⟩ := of_ofBytes_eq_ok hread
  have hforgotten := (validate_congr h.meaning_forgotten format).trans hvalid
  rw [ofBytes_toBytes hforgotten hshallow, markClean, forgotten]
  cases document
  simp_all

end Document

namespace Locator

variable {σ : Type} [Store σ] {target : Target} {settings : Settings}

theorem getAddress_keeps {I : Trail (Locator σ) → Prop} (name : String)
    (hrefresh : Keeps I (refresh settings))
    (hevaluate : ∀ formula, Keeps I (evaluate target settings formula))
    (hsave : Keeps I (saveAndReload settings))
    (hremember : ∀ address, Keeps I (remember name address)) :
    Keeps I (getAddress target settings name) := by
  have hstate : Keeps I Task.getState := fun _ h => h
  refine .bind hstate fun locator => ?_
  rcases locator.addresses.get? name with _ | address
  · refine .bind hrefresh fun _ => .bind hstate fun locator => ?_
    rcases locator.document.offset? name with _ | entry
    · exact .throw _
    · refine .bind (hevaluate entry.formula) fun address => .bind hstate fun locator => ?_
      dsimp only
      split_ifs
      · exact .bind hsave fun _ => hremember address
      · exact hremember address
  · exact .pure address

variable [Dependable σ]

/-- Whether the findings are sound in the document in use and in the stored one. -/
structure SoundThroughout (target : Target) (settings : Settings) (locator : Locator σ) : Prop where
  document : locator.document.Sound target settings
  valid : locator.document.validate settings.format = .ok ()
  shallow : locator.document.IsShallow
  exists_base : ∃ base, Document.ofBytes settings.format (bytes locator.store) = .ok base
    ∧ base.Sound target settings

namespace SoundThroughout

theorem of_ofBytes {locator : Locator σ}
    (hread : Document.ofBytes settings.format (bytes locator.store) = .ok locator.document)
    (h : locator.document.Sound target settings) : SoundThroughout target settings locator := by
  obtain ⟨hvalid, hshallow, -⟩ := Document.of_ofBytes_eq_ok hread
  exact ⟨h, hvalid, hshallow, _, hread, h⟩

theorem reload_keeps : Keeps (fun s : Trail (Locator σ) => SoundThroughout target settings s.state)
    (reload settings) := by
  intro s h
  obtain ⟨base, hread, hsound⟩ := h.exists_base
  have hreload := reload_eq settings s
  rw [hread] at hreload
  rw [Task.final_of_ok hreload]
  exact of_ofBytes (by rw [Dependable.bytes_loaded, hread]) hsound

theorem refresh_keeps : Keeps (fun s : Trail (Locator σ) => SoundThroughout target settings s.state)
    (refresh settings) := by
  intro s h
  have hrefresh := refresh_eq settings s
  split_ifs at hrefresh with hlt
  · rw [Task.final, hrefresh]
    exact reload_keeps ⟨s.state, _⟩ h
  · rw [Task.final_of_ok hrefresh]
    exact h

theorem evaluate_keeps (formula : Formula) :
    Keeps (fun s : Trail (Locator σ) => SoundThroughout target settings s.state)
      (evaluate target settings formula) := by
  intro s h
  have hsound := Locator.evaluate_keeps (σ := σ)
    (Document.sound_lasting target settings formula.references) h.document
  have hevaluated := evaluated_final target settings formula s
  have hmeaning := hevaluated.document.meaning_eq
  refine ⟨hsound, (Document.validate_congr hmeaning _).trans h.valid,
    (Document.isShallow_congr (congrArg Prod.snd hmeaning)).2 h.shallow, ?_⟩
  rw [hevaluated.store_eq]
  exact h.exists_base

theorem saveAndReload_keeps :
    Keeps (fun s : Trail (Locator σ) => SoundThroughout target settings s.state)
      (saveAndReload settings) := by
  intro s h
  rw [Task.final_of_ok (saveAndReload_eq_ok h.valid h.shallow)]
  refine of_ofBytes ?_ h.document
  rw [Dependable.bytes_loaded, Dependable.bytes_saved, Document.ofBytes_toBytes h.valid h.shallow]

end SoundThroughout

/-- A locator that is opened over a document with sound findings answers what it does without any,
and leaves sound findings in use and in the store. -/
theorem openAndGet_forgotten {store : σ} {document : Document}
    (hread : Document.ofBytes settings.format (bytes store) = .ok document)
    (hsound : document.Sound target settings) (name : String) :
    Document.ofBytes settings.format document.forgotten.toBytes = .ok document.forgotten
      ∧ (∀ bare : σ,
        Document.ofBytes settings.format (bytes bare) = .ok document.forgotten →
          openAndGet target settings name store = openAndGet target settings name bare)
      ∧ ∃ locator t, openStore settings ⟨store, []⟩ = .ok locator t
        ∧ let after := ((getAddress target settings name).final ⟨locator, t.log⟩).state
          after.document.Sound target settings
            ∧ ∃ base, Document.ofBytes settings.format (bytes after.store) = .ok base
              ∧ base.Sound target settings := by
  refine ⟨hsound.ofBytes_forgotten hread, fun bare hbare => ?_, ?_⟩
  · rw [openAndGet_of_read hread, openAndGet_of_read hbare]
    exact Document.resolve_congr hsound.meaning_forgotten.symm name
  · have hopen := openStore_eq settings (⟨store, []⟩ : Trail σ)
    rw [hread] at hopen
    refine ⟨_, _, hopen, ?_⟩
    have hkeeps : Keeps
        (fun s : Trail (Locator σ) => SoundThroughout target settings s.state) _ :=
      getAddress_keeps name SoundThroughout.refresh_keeps SoundThroughout.evaluate_keeps
        SoundThroughout.saveAndReload_keeps
        fun _ s h => ⟨h.document, h.valid, h.shallow, h.exists_base⟩
    have hopened : SoundThroughout target settings
        (⟨loaded store, document, modified store, {}, settings.registry⟩ : Locator σ) :=
      .of_ofBytes (by rw [Dependable.bytes_loaded, hread]) hsound
    have hafter := hkeeps ⟨_, [.store .load, .store .lastModified]⟩ hopened
    exact ⟨hafter.document, hafter.exists_base⟩

/-- A document with a finding of the module's build and one of another build. -/
theorem openAndGet_forgotten_two :
    let target : Target :=
      ⟨⟨0x1000, 2, "1.0"⟩, ⟨fun _ _ => .ok [0x90, 0x0A], fun _ _ => none, 8⟩, false⟩
    let document : Document :=
      ⟨[⟨"Code", "0A", some ⟨"1.0", 1⟩⟩, ⟨"Data", "90", some ⟨"0.9", 7⟩⟩], [⟨"Data", none⟩], false⟩
    ∃ held bare : HeldStore, Document.ofBytes {} held.bytes = .ok document
      ∧ document.Sound target {} ∧ Document.ofBytes {} bare.bytes = .ok document.forgotten
      ∧ openAndGet target {} "Data" held = openAndGet target {} "Data" bare := by
  intro target document
  have hstored (content : ByteArray) {document : Document}
      (h : Document.ofBytes {} content = .ok document) :
      ∃ held : HeldStore, Document.ofBytes {} (bytes held) = .ok document :=
    ⟨{ bytes := content }, h⟩
  have hvalid : document.validate {} = .ok () := by decide +kernel
  obtain ⟨held, hread⟩ := hstored _ (Document.ofBytes_toBytes hvalid (by decide))
  have hsought : PatternEntry.sought target {} ⟨"Code", "0A", some ⟨"1.0", 1⟩⟩ = .ok 0x1001 := by
    decide +kernel
  have hsound : document.Sound target {} := by
    intro entry hentry finding hfinding hcurrent
    rcases List.mem_cons.1 hentry with rfl | hentry
    · cases hfinding
      exact ⟨0x1001, hsought, by decide⟩
    · cases List.mem_singleton.1 hentry
      cases hfinding
      exact absurd hcurrent (by decide)
  obtain ⟨hforgotten, hsame, -⟩ := openAndGet_forgotten hread hsound "Data"
  obtain ⟨bare, hbare⟩ := hstored _ hforgotten
  exact ⟨held, bare, hread, hsound, hbare, hsame bare hbare⟩

end Locator

end Landmark
