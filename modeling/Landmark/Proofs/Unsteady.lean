import Mathlib.Tactic.Common
import Mathlib.Logic.Relation
import Landmark.Proofs.Invariance
import Landmark.Proofs.Sessions

/-!
# Stores that refuse calls

An `UnsteadyStore` is a store in memory that refuses any of its calls, before it touches anything.
Over such a store a call of a locator is a path of phases (`Phase`): the store refuses a call or
tells its time, gives its bytes, which are a document or not, or takes the document in use; a
formula is evaluated; an address is kept. A document is loaded in the place of one with unsaved
findings only if the store has a later one, and a formula is evaluated only if it has none
(`getAddress_path`). A call that gives a new address has saved what it found
(`getAddress_eq_ok`).
-/

namespace Landmark

/-- A store in memory that fails at some of its calls before it touches what it holds. -/
structure UnsteadyStore where
  held : HeldStore := {}
  /-- How the first call fails, the second and so on. -/
  refusal : Nat → Option Error := fun _ => none
  /-- The calls so far. -/
  calls : Nat := 0

namespace UnsteadyStore

variable {α : Type}

/-- How the next call fails. -/
def refused (store : UnsteadyStore) : Option Error :=
  store.refusal store.calls

/-- The store after a call that left what it holds. -/
def counted (store : UnsteadyStore) : UnsteadyStore :=
  { store with calls := store.calls + 1 }

/-- Makes a call of the store in memory unless it is refused. -/
def attempt (action : EStateM Error HeldStore α) : EStateM Error UnsteadyStore α := fun store =>
  match store.refused with
  | some e => .error e store.counted
  | none =>
    match action store.held with
    | .ok a held => .ok a { store.counted with held }
    | .error e held => .error e { store.counted with held }

instance : Store UnsteadyStore where
  lastModified := attempt Store.lastModified
  load := attempt Store.load
  save bytes := attempt (Store.save bytes)

/-- What others do to the store: they replace the bytes. -/
def Outside (change : UnsteadyStore → UnsteadyStore) : Prop :=
  ∃ bytes, change = fun store => { store with held := store.held.edit bytes }

end UnsteadyStore

namespace Locator

variable {α β : Type}

theorem onStore_bind (m : Task UnsteadyStore α) (k : α → Task UnsteadyStore β)
    (s : Trail (Locator UnsteadyStore)) :
    onStore (m >>= k) s = (onStore m >>= fun a => onStore (k a)) s := by
  have hbind : ∀ t, (m >>= k) t = match m t with
      | .ok a t => k a t
      | .error e t => .error e t := fun t => by
    rcases h : m t with ⟨a, u⟩ | ⟨e, u⟩
    · exact Task.bind_ok h
    · exact Task.bind_error h
  rcases h : m ⟨s.state.store, s.log⟩ with ⟨a, t⟩ | ⟨e, t⟩
  · have hm : onStore m s = .ok a ⟨{ s.state with store := t.state }, t.log⟩ := by
      simp only [onStore, Task.within, h]
    rw [Task.bind_ok hm]
    simp only [onStore, Task.within, hbind, h]
  · have hm : onStore m s = .error e ⟨{ s.state with store := t.state }, t.log⟩ := by
      simp only [onStore, Task.within, h]
    rw [Task.bind_error hm]
    simp only [onStore, Task.within, hbind, h]

/-- The locator after a store call that left what the store holds. -/
def asked (event : StoreCall) (s : Trail (Locator UnsteadyStore)) :
    Trail (Locator UnsteadyStore) :=
  ⟨{ s.state with store := s.state.store.counted }, .store event :: s.log⟩

/-- The locator after a load. -/
def took (document : Document) (s : Trail (Locator UnsteadyStore)) :
    Trail (Locator UnsteadyStore) :=
  ⟨{ (asked .load s).state with document, loadedAt := s.state.store.held.modified },
    (asked .load s).log⟩

/-- The locator after a save. -/
def gave (s : Trail (Locator UnsteadyStore)) : Trail (Locator UnsteadyStore) :=
  ⟨{ s.state with
      store := { s.state.store.counted with
        held := s.state.store.held.save s.state.document.toBytes }
      document := s.state.document.markClean },
    .store .save :: s.log⟩

variable {s : Trail (Locator UnsteadyStore)}

theorem call_attempt_ok (event : StoreCall) {action : EStateM Error HeldStore α} {a : α}
    {held : HeldStore} {s : Trail UnsteadyStore} (h : s.state.refused = none)
    (haction : action s.state.held = .ok a held) :
    Store.call event (UnsteadyStore.attempt action) s
      = .ok a ⟨{ s.state.counted with held }, .store event :: s.log⟩ := by
  simp [Store.call_eq, UnsteadyStore.attempt, h, haction]

theorem onStore_attempt_refused (event : StoreCall) (action : EStateM Error HeldStore α)
    {e : Error} (h : s.state.store.refused = some e) :
    onStore (Store.call event (UnsteadyStore.attempt action)) s = .error e (asked event s) := by
  simp [onStore, Task.within, Store.call_eq, UnsteadyStore.attempt, h, asked]

theorem onStore_attempt_ok (event : StoreCall) {action : EStateM Error HeldStore α} {a : α}
    {held : HeldStore} (h : s.state.store.refused = none)
    (haction : action s.state.store.held = .ok a held) :
    onStore (Store.call event (UnsteadyStore.attempt action)) s = .ok a
      ⟨{ s.state with store := { s.state.store.counted with held } }, .store event :: s.log⟩ := by
  rw [onStore, Task.within, call_attempt_ok (s := ⟨s.state.store, s.log⟩) event h haction]

/-- How a reload may end. -/
inductive ReloadEnds (settings : Settings) (s : Trail (Locator UnsteadyStore)) :
    EStateM.Result Error (Trail (Locator UnsteadyStore)) Unit → Prop
  | untimed {e : Error} :
    s.state.store.refused = some e → ReloadEnds settings s (.error e (asked .lastModified s))
  | refused {e : Error} :
    (asked .lastModified s).state.store.refused = some e →
      ReloadEnds settings s (.error e (asked .load (asked .lastModified s)))
  | unreadable {e : Error} :
    (asked .lastModified s).state.store.refused = none →
      Document.ofBytes settings.format s.state.store.held.bytes = .error e →
        ReloadEnds settings s (.error e (asked .load (asked .lastModified s)))
  | loaded {document : Document} :
    (asked .lastModified s).state.store.refused = none →
      Document.ofBytes settings.format s.state.store.held.bytes = .ok document →
        ReloadEnds settings s (.ok () (took document (asked .lastModified s)))

theorem reload_ends (settings : Settings) (s : Trail (Locator UnsteadyStore)) :
    ReloadEnds settings s (reload settings s) := by
  rw [reload]
  have hload : onStore (load settings.format) s = _ := onStore_bind _ _ s
  rcases htime : s.state.store.refused with _ | e
  · have hasked : onStore (Store.call .lastModified Store.lastModified) s
        = .ok s.state.store.held.modified (asked .lastModified s) :=
      onStore_attempt_ok .lastModified htime rfl
    replace hload := hload.trans ((Task.bind_ok hasked).trans (onStore_bind _ _ _))
    rcases hrefused : (asked .lastModified s).state.store.refused with _ | e
    · have hgiven : onStore (Store.call .load Store.load) (asked .lastModified s)
          = .ok s.state.store.held.bytes (asked .load (asked .lastModified s)) :=
        onStore_attempt_ok .load hrefused rfl
      replace hload := hload.trans (Task.bind_ok hgiven)
      rcases hread : Document.ofBytes settings.format s.state.store.held.bytes with e | document
      · rw [hread] at hload
        rw [Task.bind_error (hload.trans rfl)]
        exact .unreadable hrefused hread
      · rw [hread] at hload
        rw [Task.bind_ok (hload.trans rfl)]
        exact .loaded hrefused hread
    · have hgiven : onStore (Store.call .load Store.load) (asked .lastModified s)
          = .error e (asked .load (asked .lastModified s)) :=
        onStore_attempt_refused .load _ hrefused
      rw [Task.bind_error (hload.trans (Task.bind_error hgiven))]
      exact .refused hrefused
  · have hasked : onStore (Store.call .lastModified Store.lastModified) s
        = .error e (asked .lastModified s) := onStore_attempt_refused .lastModified _ htime
    rw [Task.bind_error (hload.trans (Task.bind_error hasked))]
    exact .untimed htime

theorem saveAndReload_refused (settings : Settings) {e : Error}
    (h : s.state.store.refused = some e) :
    saveAndReload settings s = .error e (asked .save s) := by
  rw [saveAndReload]
  exact (Task.bind_ok (t := s) rfl).trans
    (Task.bind_error (onStore_attempt_refused .save _ h))

theorem saveAndReload_given (settings : Settings) (h : s.state.store.refused = none) :
    saveAndReload settings s = reload settings (gave s) := by
  have hsave : onStore (Store.call .save (Store.save s.state.document.toBytes)) s = .ok ()
      ⟨{ s.state with store := (gave s).state.store }, .store .save :: s.log⟩ :=
    onStore_attempt_ok .save h rfl
  rw [saveAndReload]
  exact (Task.bind_ok (t := s) rfl).trans ((Task.bind_ok hsave).trans
    ((Task.bind_ok rfl).trans (Task.bind_ok rfl)))

theorem refresh_refused (settings : Settings) {e : Error} (h : s.state.store.refused = some e) :
    refresh settings s = .error e (asked .lastModified s) := by
  rw [refresh]
  exact Task.bind_error (onStore_attempt_refused .lastModified _ h)

theorem refresh_given (settings : Settings) (h : s.state.store.refused = none) :
    refresh settings s =
      if s.state.loadedAt < s.state.store.held.modified then
        reload settings (asked .lastModified s)
      else .ok () (asked .lastModified s) := by
  rw [refresh]
  refine (Task.bind_ok (onStore_attempt_ok .lastModified h rfl)).trans ?_
  change (if s.state.loadedAt < s.state.store.held.modified then _ else _ : Task _ _) _ = _
  split_ifs <;> rfl

/-! ## Phases -/

/-- What a call is made of, if it evaluates no other offsets than those given. -/
inductive Phase (target : Target) (settings : Settings) (evaluated : OffsetEntry → Prop)
    (s : Trail (Locator UnsteadyStore)) : Trail (Locator UnsteadyStore) → Prop
  | asked (event : StoreCall) :
    event = .lastModified ∨ s.state.store.refused ≠ none →
      Phase target settings evaluated s (asked event s)
  | unreadable {e : Error} :
    Document.ofBytes settings.format s.state.store.held.bytes = .error e →
      Phase target settings evaluated s (Locator.asked .load s)
  | took {document : Document} :
    s.state.loadedAt < s.state.store.held.modified ∨ s.state.document.dirty = false →
      Document.ofBytes settings.format s.state.store.held.bytes = .ok document →
        Phase target settings evaluated s (took document s)
  | gave :
    s.state.store.refused = none → s.state.document.dirty = true →
      Phase target settings evaluated s (gave s)
  | evaluated {entry : OffsetEntry} :
    evaluated entry → s.state.store.held.modified ≤ s.state.loadedAt →
      Phase target settings evaluated s ((evaluate target settings entry.formula).final s)
  | named (addresses : Addresses) :
    Phase target settings evaluated s ⟨{ s.state with addresses }, s.log⟩

/-- What a number of phases leave, one after the other. -/
abbrev Path (target : Target) (settings : Settings) (evaluated : OffsetEntry → Prop) :
    Trail (Locator UnsteadyStore) → Trail (Locator UnsteadyStore) → Prop :=
  Relation.ReflTransGen (Phase target settings evaluated)

variable {target : Target} {settings : Settings} {evaluated : OffsetEntry → Prop}

theorem Phase.mono {evaluated' : OffsetEntry → Prop} {t : Trail (Locator UnsteadyStore)}
    (himp : ∀ entry, evaluated entry → evaluated' entry)
    (h : Phase target settings evaluated s t) : Phase target settings evaluated' s t := by
  cases h with
  | asked call hcall => exact .asked call hcall
  | unreadable hread => exact .unreadable hread
  | took hdue hread => exact .took hdue hread
  | gave hrefused hdirty => exact .gave hrefused hdirty
  | evaluated hentry hcurrent => exact .evaluated (himp _ hentry) hcurrent
  | named addresses => exact .named addresses

theorem Path.mono {evaluated' : OffsetEntry → Prop} {t : Trail (Locator UnsteadyStore)}
    (himp : ∀ entry, evaluated entry → evaluated' entry)
    (h : Path target settings evaluated s t) : Path target settings evaluated' s t :=
  Relation.ReflTransGen.mono (fun _ _ hphase => Phase.mono himp hphase) s t h

theorem reload_path (hdue : s.state.loadedAt < s.state.store.held.modified
    ∨ s.state.document.dirty = false) :
    Path target settings evaluated s ((reload settings).final s) := by
  have hends := reload_ends settings s
  have htimed : Path target settings evaluated s (asked .lastModified s) :=
    .single (.asked .lastModified (.inl rfl))
  unfold Task.final
  generalize reload settings s = result at hends ⊢
  cases hends with
  | untimed _ => exact htimed
  | refused hrefused => exact htimed.tail (.asked .load (.inr (by simp [hrefused])))
  | unreadable _ hread => exact htimed.tail (.unreadable hread)
  | loaded _ hread => exact htimed.tail (.took hdue hread)

theorem saveAndReload_path (hdirty : s.state.document.dirty = true) :
    Path target settings evaluated s ((saveAndReload settings).final s) := by
  rcases hrefused : s.state.store.refused with _ | e
  · have heq := saveAndReload_given settings hrefused
    rw [Task.final, heq]
    exact (Relation.ReflTransGen.single (.gave hrefused hdirty)).trans (reload_path (.inr rfl))
  · rw [Task.final_of_error (saveAndReload_refused settings hrefused)]
    exact .single (.asked .save (.inr (by simp [hrefused])))

theorem refresh_path (settings : Settings) (s : Trail (Locator UnsteadyStore)) :
    Path target settings evaluated s ((refresh settings).final s) := by
  have htimed : Path target settings evaluated s (asked .lastModified s) :=
    .single (.asked .lastModified (.inl rfl))
  rcases hrefused : s.state.store.refused with _ | e
  · have heq := refresh_given settings hrefused
    rw [Task.final, heq]
    split_ifs with hlt
    · exact htimed.trans (reload_path (.inl hlt))
    · exact htimed
  · rw [Task.final_of_error (refresh_refused settings hrefused)]
    exact htimed

/-- After a refresh the store has no later document. -/
theorem modified_le_of_refresh {u : Trail (Locator UnsteadyStore)}
    (h : refresh settings s = .ok () u) : u.state.store.held.modified ≤ u.state.loadedAt := by
  rcases hrefused : s.state.store.refused with _ | e
  · rw [refresh_given settings hrefused] at h
    split_ifs at h with hlt
    · have hends := reload_ends settings (asked .lastModified s)
      rw [h] at hends
      cases hends with
      | loaded _ _ => exact Int.le_refl _
    · cases h
      exact Int.not_lt.1 hlt
  · rw [refresh_refused settings hrefused] at h
    cases h

/-- Whether an offset is evaluated when a name is asked for: the name has no address, the locator
can be refreshed and the offset has that name. -/
def Evaluates (settings : Settings) (s : Trail (Locator UnsteadyStore)) (name : String)
    (entry : OffsetEntry) : Prop :=
  s.state.addresses.get? name = none ∧ ∃ u, refresh settings s = .ok () u
    ∧ u.state.document.offset? name = some entry

theorem resolve_path {name : String} (hcurrent : s.state.store.held.modified ≤ s.state.loadedAt)
    (hevaluated : ∀ entry, s.state.document.offset? name = some entry → evaluated entry) :
    Path target settings evaluated s ((resolve target settings name).final s) := by
  rcases hentry : s.state.document.offset? name with _ | entry
  · rw [Task.final_of_error (resolve_of_offset?_eq_none target settings hentry)]
  · have hphase : Path target settings evaluated s _ :=
      .single (.evaluated (hevaluated entry hentry) hcurrent)
    have hresolve := resolve_of_offset?_eq_some target settings hentry
    generalize (evaluate target settings entry.formula).final s = t at hphase hresolve
    rcases hanswer : s.state.answerOf target settings name with e | address <;>
      simp only [hanswer] at hresolve
    · rw [Task.final_of_error hresolve]
      exact hphase
    · split_ifs at hresolve with hdirty
      · rw [Task.final, hresolve]
        refine hphase.trans (Task.final_bind_induction (fun e u hu => ?_) fun _ u hu => ?_)
        · exact Task.final_of_error hu ▸ saveAndReload_path hdirty
        · exact (Task.final_of_ok hu ▸ saveAndReload_path hdirty).tail (.named _)
      · rw [Task.final, hresolve]
        exact hphase.tail (.named _)

theorem getAddress_path (name : String) :
    Path target settings (Evaluates settings s name) s
      ((getAddress target settings name).final s) := by
  rcases hname : s.state.addresses.get? name with _ | address
  · have hget := getAddress_of_unknown target settings hname
    rw [Task.final, hget]
    refine Task.final_bind_induction (fun e u hu => ?_) fun _ u hu => ?_
    · exact Task.final_of_error hu ▸ refresh_path settings s
    · have hrefresh : Path target settings (Evaluates settings s name) s u :=
        Task.final_of_ok hu ▸ refresh_path settings s
      exact hrefresh.trans (resolve_path (modified_le_of_refresh hu)
        fun entry hentry => ⟨hname, u, hu, hentry⟩)
  · rw [Task.final_of_ok (getAddress_of_known target settings hname)]

/-- A call that gives an address of its own leaves nothing unsaved and no later document unread. -/
theorem getAddress_eq_ok {name : String} {address : UInt64} {t : Trail (Locator UnsteadyStore)}
    (hname : s.state.addresses.get? name = none)
    (h : getAddress target settings name s = .ok address t) :
    t.state.document.dirty = false ∧ t.state.store.held.modified ≤ t.state.loadedAt := by
  rw [getAddress_of_unknown target settings hname] at h
  obtain ⟨_, u, hrefresh, hresolve⟩ := Task.bind_eq_ok h
  have hcurrent := modified_le_of_refresh hrefresh
  rcases hentry : u.state.document.offset? name with _ | entry
  · rw [resolve_of_offset?_eq_none target settings hentry] at hresolve
    cases hresolve
  · rw [resolve_of_offset?_eq_some target settings hentry] at hresolve
    have hevaluated := evaluated_final target settings entry.formula u
    generalize (evaluate target settings entry.formula).final u = v at hresolve hevaluated
    rcases hanswer : u.state.answerOf target settings name with e | found <;>
      simp only [hanswer] at hresolve
    · cases hresolve
    · split_ifs at hresolve with hdirty
      · obtain ⟨_, w, hsave, hremember⟩ := Task.bind_eq_ok hresolve
        cases hremember
        rcases hrefused : v.state.store.refused with _ | e
        · rw [saveAndReload_given settings hrefused] at hsave
          have hends := reload_ends settings (gave v)
          rw [hsave] at hends
          cases hends with
          | loaded _ hread => exact ⟨(Document.of_ofBytes_eq_ok hread).2.2, Int.le_refl _⟩
        · rw [saveAndReload_refused settings hrefused] at hsave
          cases hsave
      · cases hresolve
        refine ⟨by simpa using hdirty, ?_⟩
        change v.state.store.held.modified ≤ v.state.loadedAt
        rw [hevaluated.store_eq, hevaluated.loadedAt_eq]
        exact hcurrent

theorem call_attempt_eq_ok {event : StoreCall} {action : EStateM Error HeldStore α} {a : α}
    {s t : Trail UnsteadyStore} (h : Store.call event (UnsteadyStore.attempt action) s = .ok a t) :
    s.state.refused = none ∧ ∃ held, action s.state.held = .ok a held
      ∧ t = ⟨{ s.state.counted with held }, .store event :: s.log⟩ := by
  rw [Store.call_eq, UnsteadyStore.attempt] at h
  rcases hrefused : s.state.refused with _ | e <;> simp only [hrefused] at h
  · rcases haction : action s.state.held with ⟨b, held⟩ | ⟨e, held⟩ <;> simp only [haction] at h
    · cases h
      exact ⟨rfl, held, rfl, rfl⟩
    · cases h
  · cases h

theorem openStore_of_ofBytes {store : UnsteadyStore} {log : List Event} {document : Document}
    (hfirst : store.refusal store.calls = none) (hsecond : store.refusal (store.calls + 1) = none)
    (hread : Document.ofBytes settings.format store.held.bytes = .ok document) :
    openStore settings ⟨store, log⟩ = .ok
      { store := store.counted.counted, document, loadedAt := store.held.modified,
        registry := settings.registry }
      ⟨store.counted.counted, .store .load :: .store .lastModified :: log⟩ := by
  have htime : Store.call .lastModified Store.lastModified (⟨store, log⟩ : Trail UnsteadyStore)
      = .ok store.held.modified ⟨store.counted, .store .lastModified :: log⟩ :=
    call_attempt_ok .lastModified hfirst rfl
  have hbytes : Store.call .load Store.load ⟨store.counted, .store .lastModified :: log⟩
      = .ok store.held.bytes
        ⟨store.counted.counted, .store .load :: .store .lastModified :: log⟩ :=
    call_attempt_ok .load hsecond rfl
  have hload : load settings.format (⟨store, log⟩ : Trail UnsteadyStore) = _ :=
    (Task.bind_ok htime).trans (Task.bind_ok hbytes)
  rw [hread] at hload
  exact (Task.bind_ok (hload.trans (Task.bind_ok rfl))).trans rfl

/-- A locator that is opened over a store that was not called before. -/
theorem openStore_fresh (settings : Settings) (refusal : Nat → Option Error)
    (hfirst : refusal 0 = none) (hsecond : refusal 1 = none) {content : ByteArray}
    {document : Document} (hread : Document.ofBytes settings.format content = .ok document) :
    openStore settings (⟨{ held := { bytes := content }, refusal }, []⟩ : Trail UnsteadyStore)
      = .ok { store := { held := { bytes := content }, refusal, calls := 2 }, document,
              loadedAt := .epoch, registry := settings.registry }
        ⟨{ held := { bytes := content }, refusal, calls := 2 },
          [.store .load, .store .lastModified]⟩ :=
  openStore_of_ofBytes hfirst hsecond hread

/-- A locator is opened with the document in the store. -/
theorem openStore_eq_ok {store : UnsteadyStore} {log : List Event}
    {locator : Locator UnsteadyStore} {t : Trail UnsteadyStore}
    (h : openStore settings ⟨store, log⟩ = .ok locator t) :
    ∃ document, Document.ofBytes settings.format store.held.bytes = .ok document
      ∧ store.refusal store.calls = none ∧ store.refusal (store.calls + 1) = none
      ∧ locator =
        { store := store.counted.counted, document, loadedAt := store.held.modified,
          registry := settings.registry }
      ∧ t = ⟨store.counted.counted, .store .load :: .store .lastModified :: log⟩ := by
  obtain ⟨⟨document, loadedAt⟩, u, hload, hopen⟩ := Task.bind_eq_ok h
  obtain ⟨time, v, htime, hload⟩ := Task.bind_eq_ok hload
  obtain ⟨bytes, w, hbytes, hload⟩ := Task.bind_eq_ok hload
  obtain ⟨hfirst, _, htold, rfl⟩ := call_attempt_eq_ok htime
  obtain ⟨hsecond, _, hgiven, rfl⟩ := call_attempt_eq_ok hbytes
  cases htold
  cases hgiven
  rcases hread : Document.ofBytes settings.format store.held.bytes with e | found <;>
    rw [show Document.ofBytes settings.format _ = _ from hread] at hload
  · cases hload
  · cases hload
    cases hopen
    exact ⟨_, rfl, hfirst, hsecond, rfl, rfl⟩

end Locator

end Landmark
