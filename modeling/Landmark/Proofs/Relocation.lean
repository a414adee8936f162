import Mathlib.Tactic.Common
import Landmark.Memory.Buffer
import Landmark.Proofs.Captures
import Landmark.Proofs.Courses
import Landmark.Proofs.Displacement
import Landmark.Proofs.Findings
import Landmark.Proofs.Freshness
import Landmark.Proofs.Keeping

/-!
# Addresses in a later run

What a lookup has found is kept as a distance from the base of the module, and saved before an
address is given. A locator that is opened over the same store later, for a module of the same
version that is mapped elsewhere, finds it there (`Document.locate_again`). So an offset that moves
a pattern is given the address that is as far from the base as it was, and that without a search, a
read or a save (`Locator.getAddress_relocated`). Nothing has to be known of the store but that its
calls succeed and that it holds what was saved last.
-/

namespace Landmark

/-! ## Lookups of patterns that were found before -/

/-- A finding gives addresses at one distance from the base in all modules of its version. -/
theorem Finding.address?_of_version {finding : Finding} {image image' : Image} {address : UInt64}
    (h : finding.address? image = some address) (hversion : image'.version = image.version) :
    finding.address? image' = some (address - image.base + image'.base) := by
  unfold address? at h ⊢
  split_ifs at h with hcurrent
  cases h
  have hthere : finding.isCurrent image' = true := by rwa [isCurrent, hversion]
  rw [if_pos hthere, Image.addressAt, Image.addressAt, UInt64.add_comm image.base,
    UInt64.add_sub_cancel, UInt64.add_comm]

namespace Document

variable {target target' : Target} {settings settings' : Settings} {name : String}
  {document : Document} {address : UInt64} {s t : Trail Document}

theorem searchFor_state {index : Nat} {entry : PatternEntry}
    (hentry : s.state.patterns[index]? = some entry)
    (h : searchFor target settings name index entry s = .ok address t) :
    t.state = s.state.keepFinding index entry (Finding.capture address target.image) := by
  unfold searchFor at h
  rcases hsignature : entry.signature settings.format with fault | signature <;>
    rw [hsignature] at h
  · cases h
  · change ((settings.search signature).findFirstInModule target >>= _)
      ⟨s.state, .sought name :: s.log⟩ = _ at h
    obtain ⟨log, hsearch⟩ := (settings.search signature).exists_findFirstInModule_eq target
      (⟨s.state, .sought name :: s.log⟩ : Trail Document)
    obtain ⟨found, u, hfound, h⟩ := Task.bind_eq_ok h
    rcases hresult : (settings.search signature).found target with e | found' <;>
      rw [hsearch, hresult] at hfound <;> cases hfound
    have hkeep := editing_setCached (s := ⟨s.state, .located name found :: log⟩) hentry
      (some (Finding.capture found target.image))
    cases h.symm.trans ((Task.bind_ok rfl).trans (Task.bind_ok hkeep))
    rfl

/-- A pattern that was located has a finding that gives its address from then on. -/
theorem exists_finding_of_locate (htrim : Text.trim target.image.version = target.image.version)
    (h : locate target settings name s = .ok address t) :
    ∃ entry finding, t.state.pattern? name = some entry ∧ entry.cached = some finding
      ∧ finding.address? target.image = some address := by
  rw [locate_eq] at h
  rcases hindex : s.state.patternIndex name with _ | index <;> simp only [hindex] at h
  · cases h
  · rcases hentry : s.state.patterns[index]? with _ | entry <;> simp only [hentry] at h
    · cases h
    · rcases hcached : entry.cached.bind fun finding => finding.address? target.image
        with _ | known <;> simp only [hcached] at h
      · have hcurrent := (Finding.isCurrent_capture_iff (rfl : target.image.version = _)
          address).2 (Text.trim_eq_self_iff.1 htrim)
        rw [searchFor_state hentry h, pattern?_keepFinding hentry, if_pos hindex]
        refine ⟨_, _, rfl, rfl, ?_⟩
        rw [Finding.address?, if_pos hcurrent, Finding.capture, Image.addressAt_offsetOf]
      · cases h
        obtain ⟨finding, hfinding, haddress⟩ := Option.bind_eq_some_iff.1 hcached
        refine ⟨entry, finding, ?_, hfinding, haddress⟩
        rw [pattern?_eq, hindex, Option.bind_some, hentry]

/-- What was located once is located again, with nothing done, in any module of that version. -/
theorem locate_again (htrim : Text.trim target.image.version = target.image.version)
    (h : locate target settings name s = .ok address t)
    (hversion : target'.image.version = target.image.version) {u : Trail Document}
    (hpatterns : u.state.patterns = t.state.patterns) :
    locate target' settings' name u
      = .ok (address - target.image.base + target'.image.base) u := by
  obtain ⟨entry, finding, hpattern, hfinding, haddress⟩ := exists_finding_of_locate htrim h
  rw [pattern?_eq] at hpattern
  obtain ⟨index, hindex, hentry⟩ := Option.bind_eq_some_iff.1 hpattern
  have hindex' : u.state.patternIndex name = some index := by
    rw [patternIndex, hpatterns]
    exact hindex
  simp only [locate_eq, hindex', hpatterns, hentry, hfinding, Option.bind_some,
    finding.address?_of_version haddress hversion]

end Document

/-! ## Runs over a store that keeps what it holds -/

/-- Events of calls that neither search, nor read memory, nor save. -/
def Event.IsQuiet : Event → Prop
  | .lookup _ => True
  | .store .lastModified => True
  | .store .load => True
  | _ => False

namespace Locator

variable {σ : Type} [Store σ] {Holds : ByteArray → σ → Prop} {content : ByteArray}
  {settings : Settings}

theorem exists_load_eq (hkeeping : Store.Keeping Holds) {s : Trail σ} (hs : Holds content s.state)
    (format : SignatureFormat) : ∃ time store, Holds content store
      ∧ load format s = (Task.ofExcept (Document.ofBytes format content) >>= fun document =>
        pure (document, time)) ⟨store, .store .load :: .store .lastModified :: s.log⟩ := by
  obtain ⟨time, asked, htime, hasked⟩ := hkeeping.lastModified hs
  obtain ⟨store, hload, hstore⟩ := hkeeping.load hasked
  refine ⟨time, store, hstore, ?_⟩
  have hlastModified : Store.call .lastModified Store.lastModified s
      = .ok time ⟨asked, .store .lastModified :: s.log⟩ := by
    rw [Store.call_eq, htime]
  have hbytes : Store.call .load Store.load ⟨asked, .store .lastModified :: s.log⟩
      = .ok content ⟨store, .store .load :: .store .lastModified :: s.log⟩ := by
    rw [Store.call_eq, hload]
  rw [load, Task.bind_ok hlastModified, Task.bind_ok hbytes]

/-- A locator that has resolved nothing yet, and has done nothing but to look, over a store that
holds the document in use. -/
structure Fresh (Holds : ByteArray → σ → Prop) (settings : Settings) (content : ByteArray)
    (s : Trail (Locator σ)) : Prop where
  holds : Holds content s.state.store
  read : Document.ofBytes settings.format content = .ok s.state.document
  offer : s.state.scene.registry.SameOffer settings.operators
  unknown : ∀ name, s.state.addresses.get? name = none
  quiet : ∀ event ∈ s.log, event.IsQuiet

theorem exists_openStore_eq (hkeeping : Store.Keeping Holds) {store : σ} (hs : Holds content store)
    (settings : Settings) : ∃ time store', Holds content store'
      ∧ openStore settings ⟨store, []⟩
        = (Task.ofExcept (Document.ofBytes settings.format content) >>= fun document =>
          pure ({ store := store', document, loadedAt := time, registry := settings.registry } :
            Locator σ)) ⟨store', [.store .load, .store .lastModified]⟩ := by
  obtain ⟨time, store', hstore', hload⟩ :=
    exists_load_eq hkeeping (s := ⟨store, []⟩) hs settings.format
  refine ⟨time, store', hstore', ?_⟩
  rw [openStore]
  rcases hread : Document.ofBytes settings.format content with e | document <;> rw [hread] at hload
  · exact Task.bind_error hload
  · exact (Task.bind_ok hload).trans rfl

theorem Fresh.of_openStore (hkeeping : Store.Keeping Holds) {store : σ} (hs : Holds content store)
    {locator : Locator σ} {t : Trail σ}
    (hopen : openStore settings ⟨store, []⟩ = .ok locator t) :
    Fresh Holds settings content ⟨locator, t.log⟩ := by
  obtain ⟨time, store', hstore', hopened⟩ := exists_openStore_eq hkeeping hs settings
  rw [hopen] at hopened
  rcases hread : Document.ofBytes settings.format content with e | document <;>
    rw [hread] at hopened <;> cases hopened
  exact ⟨hstore', hread, fun _ => rfl, fun _ => rfl, by simp [Event.IsQuiet]⟩

theorem exists_openStore_eq_ok (hkeeping : Store.Keeping Holds) {store : σ}
    (hs : Holds content store) {document : Document}
    (hread : Document.ofBytes settings.format content = .ok document) :
    ∃ locator t, openStore settings ⟨store, []⟩ = .ok locator t := by
  obtain ⟨time, store', -, hopened⟩ := exists_openStore_eq hkeeping hs settings
  rw [hread] at hopened
  exact ⟨_, _, hopened⟩

theorem exists_reload_eq_ok (hkeeping : Store.Keeping Holds) {s : Trail (Locator σ)}
    (hs : Holds content s.state.store) {document : Document}
    (hread : Document.ofBytes settings.format content = .ok document) :
    ∃ time store, Holds content store ∧ reload settings s = .ok ()
      ⟨{ s.state with store, document, loadedAt := time },
        .store .load :: .store .lastModified :: s.log⟩ := by
  obtain ⟨time, store, hstore, hload⟩ :=
    exists_load_eq hkeeping (s := ⟨s.state.store, s.log⟩) hs settings.format
  refine ⟨time, store, hstore, ?_⟩
  rw [hread] at hload
  have honStore : onStore (load settings.format) s = .ok (document, time)
      ⟨{ s.state with store }, .store .load :: .store .lastModified :: s.log⟩ := by
    rw [onStore, Task.within, hload]
    rfl
  rw [reload, Task.bind_ok honStore]
  rfl

theorem Fresh.refresh (hkeeping : Store.Keeping Holds) {s : Trail (Locator σ)}
    (h : Fresh Holds settings content s) : ∃ t, Locator.refresh settings s = .ok () t
      ∧ Fresh Holds settings content t ∧ t.state.document = s.state.document := by
  obtain ⟨time, asked, htime, hasked⟩ := hkeeping.lastModified h.holds
  let u : Trail (Locator σ) := ⟨{ s.state with store := asked }, .store .lastModified :: s.log⟩
  have hu : Fresh Holds settings content u :=
    ⟨hasked, h.read, h.offer, h.unknown, by simpa [u, Event.IsQuiet] using h.quiet⟩
  have honStore : onStore (Store.call .lastModified Store.lastModified) s = .ok time u := by
    rw [onStore, Task.within, Store.call_eq, htime]
  have hrefresh : Locator.refresh settings s
      = (if s.state.loadedAt < time then reload settings else pure ()) u := by
    rw [Locator.refresh, Task.bind_ok honStore]
    rfl
  rw [hrefresh]
  split_ifs
  · obtain ⟨time', store, hstore, hreload⟩ := exists_reload_eq_ok hkeeping hu.holds hu.read
    have hquiet : ∀ event ∈ .store .load :: .store .lastModified :: u.log, Event.IsQuiet event := by
      simpa [Event.IsQuiet] using hu.quiet
    exact ⟨_, hreload, ⟨hstore, h.read, h.offer, h.unknown, hquiet⟩, rfl⟩
  · exact ⟨u, rfl, hu, rfl⟩

/-- A valid document without a formula that is too high is what a store holds once it was saved. -/
theorem exists_saveAndReload_eq_ok (hkeeping : Store.Keeping Holds) {s : Trail (Locator σ)}
    (hs : Holds content s.state.store)
    (hvalid : s.state.document.validate settings.format = .ok ())
    (hshallow : s.state.document.IsShallow) :
    ∃ time store log, Holds s.state.document.toBytes store ∧ saveAndReload settings s = .ok ()
      ⟨{ s.state with store, document := s.state.document.markClean, loadedAt := time }, log⟩ := by
  obtain ⟨saved, hsave, hsaved⟩ := hkeeping.save hs s.state.document.toBytes
  have honStore : onStore (Store.call .save (Store.save s.state.document.toBytes)) s
      = .ok () ⟨{ s.state with store := saved }, .store .save :: s.log⟩ := by
    rw [onStore, Task.within, Store.call_eq, hsave]
  obtain ⟨time, store, hstore, hreload⟩ := exists_reload_eq_ok hkeeping
    (s := ⟨{ s.state with store := saved, document := s.state.document.markClean },
      .store .save :: s.log⟩) hsaved (Document.ofBytes_toBytes hvalid hshallow)
  exact ⟨time, store, _, hstore,
    (Task.bind_ok (t := s) rfl).trans ((Task.bind_ok honStore).trans hreload)⟩

/-! ## Resolving a name for the first time -/

variable {target target' : Target} {settings' : Settings} {name pattern : String}

omit [Store σ] in
theorem remember_of_unknown {address : UInt64} {s : Trail (Locator σ)}
    (h : s.state.addresses.get? name = none) : remember name address s = .ok address
      ⟨{ s.state with addresses := (s.state.addresses.insert name address).2 }, s.log⟩ := by
  rw [remember_eq]
  simp only [Addresses.insert, h]

theorem exists_evaluate_of_resolve_eq_ok {s t : Trail (Locator σ)} {entry : OffsetEntry}
    {a : UInt64} (hentry : s.state.document.offset? name = some entry)
    (h : resolve target settings name s = .ok a t) :
    ∃ address u, evaluate target settings entry.formula s = .ok address u := by
  have hevaluate := Task.eq_ofExcept (evaluate target settings entry.formula) s
  rw [← answerOf_of_offset?_eq_some target settings hentry] at hevaluate
  rw [resolve_of_offset?_eq_some target settings hentry] at h
  rcases hanswer : s.state.answerOf target settings name with e | address <;>
    rw [hanswer] at hevaluate <;> simp only [hanswer] at h
  · cases h
  · exact ⟨address, _, hevaluate⟩

namespace Fresh

variable {s u w : Trail (Locator σ)} {entry : OffsetEntry} {address : UInt64}

/-- An address that was evaluated is given, and the store holds the document with what was found on
the way then. -/
theorem exists_resolve_eq_ok (hkeeping : Store.Keeping Holds)
    (h : Fresh Holds settings content s)
    (hentry : s.state.document.offset? name = some entry)
    (hevaluate : evaluate target settings entry.formula s = .ok address w) :
    ∃ u content' document, resolve target settings name s = .ok address u
      ∧ Holds content' u.state.store ∧ Document.ofBytes settings.format content' = .ok document
      ∧ document.offset? name = some entry ∧ document.patterns = w.state.document.patterns
      ∧ (w.state.document.dirty = false → u.log = w.log) := by
  have hevaluated := evaluated_final target settings entry.formula s
  have hresolve := resolve_of_offset?_eq_some target settings hentry
  rw [answerOf_of_offset?_eq_some target settings hentry, Task.answer, hevaluate,
    Task.final_of_ok hevaluate] at hresolve
  rw [Task.final_of_ok hevaluate] at hevaluated
  have hholds : Holds content w.state.store := hevaluated.store_eq ▸ h.holds
  have hunknown : w.state.addresses.get? name = none := hevaluated.addresses_eq ▸ h.unknown name
  have hoffset : w.state.document.offset? name = some entry :=
    (Document.offset?_congr hevaluated.document.meaning_eq name).trans hentry
  obtain ⟨hvalid, hshallow, -⟩ := Document.of_ofBytes_eq_ok h.read
  -- An unmarked document is still the one in the store, a marked one is saved before the answer.
  rcases hdirty : w.state.document.dirty with _ | _ <;> simp only [hdirty] at hresolve
  · have hsame := hevaluated.document.eq_of_unmarked hdirty
    exact ⟨_, content, w.state.document, hresolve.trans (remember_of_unknown hunknown), hholds,
      hsame ▸ h.read, hoffset, rfl, fun _ => rfl⟩
  · replace hvalid := (Document.validate_congr hevaluated.document.meaning_eq _).trans hvalid
    replace hshallow := (Document.isShallow_congr
      (congrArg Prod.snd hevaluated.document.meaning_eq)).2 hshallow
    obtain ⟨time, store, log, hstore, hsave⟩ :=
      exists_saveAndReload_eq_ok hkeeping hholds hvalid hshallow
    exact ⟨_, _, w.state.document.markClean,
      hresolve.trans ((Task.bind_ok hsave).trans (remember_of_unknown hunknown)), hstore,
      Document.ofBytes_toBytes hvalid hshallow, hoffset, rfl, fun h => by cases h⟩

/-- A first resolution is one by the document in the store. -/
theorem exists_getAddress_eq (hkeeping : Store.Keeping Holds)
    (h : Fresh Holds settings content s) : ∃ t, Fresh Holds settings content t
      ∧ t.state.document = s.state.document
      ∧ ∀ (target : Target) (name : String),
        getAddress target settings name s = resolve target settings name t := by
  obtain ⟨t, hrefresh, ht, hdocument⟩ := h.refresh hkeeping
  refine ⟨t, ht, hdocument, fun target name => ?_⟩
  rw [getAddress_of_unknown target settings (h.unknown name), Task.bind_ok hrefresh]

end Fresh

/-! ## Names that move a pattern -/

variable {distance : Except Error UInt64} {formula : Formula}

omit [Store σ] in
theorem exists_evaluate_eq_of_moves (target : Target) (settings : Settings)
    (hmoves : formula.Moves pattern distance) {s : Trail (Locator σ)}
    (hs : s.state.scene.registry.Adds) : ∃ registry, evaluate target settings formula s
      = match Formula.moved (Document.locate target settings) pattern distance
          ⟨s.state.document, s.log⟩ with
        | .ok a t => .ok a ⟨s.state.putScene ⟨registry, t.state⟩, t.log⟩
        | .error e t => .error e ⟨s.state.putScene ⟨registry, t.state⟩, t.log⟩ := by
  obtain ⟨registry, -, hevaluate⟩ := Formula.evaluateAddress_of_moves hmoves
    (Document.locate target settings) (some target.memory) ⟨s.state.scene, s.log⟩ hs
  refine ⟨registry, ?_⟩
  change _ = Scene.outcome registry (Formula.moved (Document.locate target settings) pattern
    distance ⟨s.state.document, s.log⟩) at hevaluate
  rw [evaluate, Task.within, hevaluate]
  rcases Formula.moved (Document.locate target settings) pattern distance
    ⟨s.state.document, s.log⟩ with ⟨a, t⟩ | ⟨e, t⟩ <;> rfl

omit [Store σ] in
theorem evaluate_eq_ok_of_moves (hmoves : formula.Moves pattern distance) {s t : Trail (Locator σ)}
    (hs : s.state.scene.registry.Adds) {a : UInt64}
    (h : evaluate target settings formula s = .ok a t) :
    ∃ address d u v, Document.locate target settings pattern u = .ok address v
      ∧ t.state.document.patterns = v.state.patterns ∧ distance = .ok d ∧ a = address + d := by
  obtain ⟨registry, hevaluate⟩ := exists_evaluate_eq_of_moves target settings hmoves hs
  rw [h] at hevaluate
  rcases hmoved : Formula.moved (Document.locate target settings) pattern distance
    ⟨s.state.document, s.log⟩ with ⟨a', v⟩ | ⟨e, v⟩ <;> rw [hmoved] at hevaluate <;> cases hevaluate
  obtain ⟨address, d, hlocate, hdistance, ha⟩ := Formula.moved_eq_ok hmoved
  exact ⟨address, d, _, v, hlocate, rfl, hdistance, ha⟩

omit [Store σ] in
theorem exists_evaluate_eq_ok_of_locate {address d : UInt64}
    (hmoves : formula.Moves pattern (.ok d)) {s : Trail (Locator σ)}
    (hs : s.state.scene.registry.Adds)
    (hlocate : ∀ u : Trail Document, u.state.patterns = s.state.document.patterns →
      Document.locate target settings pattern u = .ok address u) :
    ∃ t, evaluate target settings formula s = .ok (address + d) t
      ∧ t.state.document = s.state.document ∧ t.log = .lookup pattern :: s.log := by
  obtain ⟨registry, hevaluate⟩ := exists_evaluate_eq_of_moves target settings hmoves hs
  rw [Formula.moved_of_atlas_eq_ok (hlocate ⟨s.state.document, .lookup pattern :: s.log⟩ rfl)]
    at hevaluate
  exact ⟨_, hevaluate, rfl, rfl⟩

namespace Fresh

variable {s u : Trail (Locator σ)} {entry : OffsetEntry}

/-- What the first run leaves: the store holds a document in which the pattern of the formula is as
it was when it was located. -/
theorem exists_located (hkeeping : Store.Keeping Holds) (h : Fresh Holds settings content s)
    (hadds : settings.operators.Adds) (hentry : s.state.document.offset? name = some entry)
    (hmoves : entry.formula.Moves pattern distance) {a : UInt64}
    (hget : getAddress target settings name s = .ok a u) :
    ∃ content' document, Holds content' u.state.store
      ∧ Document.ofBytes settings.format content' = .ok document
      ∧ document.offset? name = some entry
      ∧ ∃ address d v w, Document.locate target settings pattern v = .ok address w
        ∧ document.patterns = w.state.patterns ∧ distance = .ok d ∧ a = address + d := by
  obtain ⟨t, ht, hdocument, hresolve⟩ := h.exists_getAddress_eq hkeeping
  rw [hresolve] at hget
  rw [← hdocument] at hentry
  obtain ⟨a', w, hevaluate⟩ := exists_evaluate_of_resolve_eq_ok hentry hget
  obtain ⟨u', content', document, hresolved, hholds, hread, hoffset, hpatterns, -⟩ :=
    ht.exists_resolve_eq_ok hkeeping hentry hevaluate
  cases hget.symm.trans hresolved
  obtain ⟨address, d, v, v', hlocate, hsame, hdistance, ha⟩ :=
    evaluate_eq_ok_of_moves hmoves (hadds.of_sameOffer ht.offer) hevaluate
  exact ⟨content', document, hholds, hread, hoffset, address, d, v, v', hlocate,
    hpatterns.trans hsame, hdistance, ha⟩

/-- A name that moves a pattern is given its address, quietly, where the pattern is located so. -/
theorem exists_getAddress_eq_ok (hkeeping : Store.Keeping Holds)
    (h : Fresh Holds settings content s) (hadds : settings.operators.Adds)
    (hentry : s.state.document.offset? name = some entry) {address d : UInt64}
    (hmoves : entry.formula.Moves pattern (.ok d))
    (hlocate : ∀ u : Trail Document, u.state.patterns = s.state.document.patterns →
      Document.locate target settings pattern u = .ok address u) :
    ∃ t, getAddress target settings name s = .ok (address + d) t
      ∧ ∀ event ∈ t.log, event.IsQuiet := by
  obtain ⟨t, ht, hdocument, hresolve⟩ := h.exists_getAddress_eq hkeeping
  rw [← hdocument] at hentry hlocate
  obtain ⟨w, hevaluate, hsame, hlog⟩ :=
    exists_evaluate_eq_ok_of_locate hmoves (hadds.of_sameOffer ht.offer) hlocate
  obtain ⟨u, -, -, hresolved, -, -, -, -, hquiet⟩ :=
    ht.exists_resolve_eq_ok hkeeping hentry hevaluate
  refine ⟨u, (hresolve target name).trans hresolved, ?_⟩
  have hclean : w.state.document.dirty = false := by
    rw [hsame]
    exact (Document.of_ofBytes_eq_ok ht.read).2.2
  rw [hquiet hclean, hlog]
  exact List.forall_mem_cons.2 ⟨trivial, ht.quiet⟩

end Fresh

/-- A later run on the same store finds a name that moves a pattern as far from the base as the run
before did, in a module of the same version, and does nothing for it but to load the document and to
look the pattern up there. -/
theorem getAddress_relocated (hkeeping : Store.Keeping Holds) {store : σ}
    (hstore : Holds content store) (hadds : settings.operators.Adds)
    (hadds' : settings'.operators.Adds) (hformat : settings'.format = settings.format)
    (hends : ¬ Text.HasBlankEnd target.image.version)
    (hversion : target'.image.version = target.image.version) {locator : Locator σ} {t : Trail σ}
    (hopen : openStore settings ⟨store, []⟩ = .ok locator t) {entry : OffsetEntry}
    (hentry : locator.document.offset? name = some entry)
    (hmoves : entry.formula.Moves pattern distance) {a : UInt64} {u : Trail (Locator σ)}
    (hget : getAddress target settings name ⟨locator, t.log⟩ = .ok a u) :
    ∃ locator' t' u', openStore settings' ⟨u.state.store, []⟩ = .ok locator' t'
      ∧ getAddress target' settings' name ⟨locator', t'.log⟩
        = .ok (UInt64.ofInt (a.toNat - target.image.base.toNat + target'.image.base.toNat)) u'
      ∧ ∀ event ∈ u'.log, event.IsQuiet := by
  have hfresh := Fresh.of_openStore hkeeping hstore hopen
  obtain ⟨content', document, hheld, hread, hoffset, x, d, v, w, hlocate, hpatterns, rfl, rfl⟩ :=
    hfresh.exists_located hkeeping hadds hentry hmoves hget
  rw [← hformat] at hread
  obtain ⟨locator', t', hopen'⟩ := exists_openStore_eq_ok hkeeping hheld hread
  have hfresh' := Fresh.of_openStore hkeeping hheld hopen'
  have hdocument : locator'.document = document := Except.ok.inj (hfresh'.read.symm.trans hread)
  obtain ⟨u', hget', hquiet⟩ := hfresh'.exists_getAddress_eq_ok hkeeping hadds'
    (hdocument ▸ hoffset) hmoves fun r hr =>
      Document.locate_again (Text.trim_eq_self_iff.2 hends) hlocate hversion
        (hr.trans ((congrArg Document.patterns hdocument).trans hpatterns))
  refine ⟨locator', t', u', hopen', ?_, hquiet⟩
  -- The first run adds the distance before the base is taken off, the second one after.
  have haddress : x - target.image.base + target'.image.base + d
      = x + d - target.image.base + target'.image.base := by grind
  rw [hget', haddress, ← Image.addressAt_offsetOf_eq_ofInt, Image.addressAt_offsetOf_of]

/-- A name that the stored document resolves is given its address by a locator that is opened. -/
theorem exists_openStore_getAddress (hkeeping : Store.Keeping Holds) {store : σ}
    (hstore : Holds content store) {document : Document}
    (hread : Document.ofBytes settings.format content = .ok document) {entry : OffsetEntry}
    (hentry : document.offset? name = some entry) {a : UInt64}
    (hresolve : document.resolve target settings name = .ok a) :
    ∃ locator t u, openStore settings ⟨store, []⟩ = .ok locator t ∧ locator.document = document
      ∧ getAddress target settings name ⟨locator, t.log⟩ = .ok a u := by
  obtain ⟨locator, t, hopen⟩ := exists_openStore_eq_ok hkeeping hstore hread
  have hfresh := Fresh.of_openStore hkeeping hstore hopen
  have hdocument : locator.document = document := Except.ok.inj (hfresh.read.symm.trans hread)
  obtain ⟨v, hv, hsame, hget⟩ := hfresh.exists_getAddress_eq hkeeping
  replace hsame : v.state.document = document := hsame.trans hdocument
  have hentry' : v.state.document.offset? name = some entry := hsame ▸ hentry
  have hanswer : v.state.answerOf target settings name = .ok a := by
    rw [← hresolve, Document.resolve]
    exact answerOf_congr (congrArg (Document.meaning target settings) hsame) hv.offer name
  have hevaluate := Task.eq_ofExcept (evaluate target settings entry.formula) v
  rw [← answerOf_of_offset?_eq_some target settings hentry', hanswer] at hevaluate
  obtain ⟨u, -, -, hresolved, -⟩ := hv.exists_resolve_eq_ok hkeeping hentry' hevaluate
  exact ⟨locator, t, u, hopen, hdocument, (hget target name).trans hresolved⟩

/-- A pattern of a document in a file is found in the first run, and the finding is saved. In the
second run the module lies near the start of the address space, and its memory cannot be read. -/
theorem getAddress_relocated_file :
    let buffer : Buffer := ⟨0x1000, [0x90, 0x0A]⟩
    let target : Target := ⟨⟨0x1000, 2, "1.0"⟩, buffer.memory, true⟩
    let target' : Target :=
      ⟨⟨8, 2, "1.0"⟩, ⟨fun address size => .error (.readFailed address (.short size 0)),
        fun _ _ => none, 8⟩, false⟩
    let formula : Formula :=
      .unary "Add" (some "-20") (.binary "Add" (.pattern " Code ") (.constant "FFFFFFF0"))
    let document : Document := ⟨[⟨"Code", "0A", none⟩], [⟨"Entry", some formula⟩], false⟩
    ∃ (store : FileStore) (locator locator' : Locator FileStore) (t t' : Trail FileStore)
      (u u' : Trail (Locator FileStore)), openStore {} ⟨store, []⟩ = .ok locator t
        ∧ locator.document = document
        ∧ getAddress target {} "Entry" ⟨locator, t.log⟩ = .ok 0xFD1 u
        ∧ openStore {} ⟨u.state.store, []⟩ = .ok locator' t'
        ∧ getAddress target' {} "Entry" ⟨locator', t'.log⟩ = .ok 0xFFFFFFFFFFFFFFD9 u'
        ∧ ∀ event ∈ u'.log, event.IsQuiet := by
  intro buffer target target' formula document
  have hstored (content : ByteArray) : FileStore.Holds content
      ⟨⟨["offsets.json"]⟩, ⟨[(["offsets.json"], .file content 5)]⟩, 5⟩ :=
    ⟨rfl, ["offsets.json"], rfl, by simp [FileTree.node?], rfl⟩
  have hstore := hstored document.toBytes
  have hread : Document.ofBytes ({} : Settings).format document.toBytes = .ok document :=
    Document.ofBytes_toBytes (by decide +kernel) (by decide +kernel)
  have hentry : document.offset? "Entry" = some ⟨"Entry", some formula⟩ := by decide +kernel
  have hresolve : document.resolve target {} "Entry" = .ok 0xFD1 := by decide +kernel
  obtain ⟨locator, t, u, hopen, hdocument, hget⟩ :=
    exists_openStore_getAddress FileStore.keeping hstore hread hentry hresolve
  have hadds : ({} : Settings).operators.Adds := Registry.adds_standard
  have hends : ¬ Text.HasBlankEnd target.image.version := Text.trim_eq_self_iff.1 (by decide)
  have hversion : target'.image.version = target.image.version := rfl
  have hmoves : (⟨"Entry", some formula⟩ : OffsetEntry).formula.Moves (Text.trim " Code ") _ :=
    .unary _ (.binary _ (.pattern _))
  obtain ⟨locator', t', u', hopen', hget', hquiet⟩ := getAddress_relocated FileStore.keeping hstore
    hadds hadds rfl hends hversion hopen (hdocument ▸ hentry) hmoves hget
  have haddress : UInt64.ofInt ((0xFD1 : UInt64).toNat - target.image.base.toNat
      + target'.image.base.toNat) = 0xFFFFFFFFFFFFFFD9 := by decide
  rw [haddress] at hget'
  exact ⟨_, locator, locator', t, t', u, u', hopen, hdocument, hget, hopen', hget', hquiet⟩

end Locator

end Landmark
