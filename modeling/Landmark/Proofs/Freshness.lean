import Mathlib.Tactic.Common
import Landmark.Memory.Buffer
import Landmark.Proofs.Sessions

/-!
# Freshness

A name that is not known yet is resolved by the bytes in the store, whatever the session has left in
the document in use: findings that were not saved, edits that were taken back, documents that others
have replaced since (`getAddress_answer`). So a locator answers what one that is opened right now
would (`getAddress_eq_openAndGet`).
-/

namespace Landmark

/-- What a name comes to by a document that was just loaded. -/
def Document.resolve (target : Target) (settings : Settings) (document : Document)
    (name : String) : Except Error UInt64 :=
  Locator.answerOf target settings
    ({ store := (), document, loadedAt := .epoch, registry := settings.registry } : Locator Unit)
    name

namespace Locator

open Dependable (bytes modified loaded saved)

variable {σ : Type} [Store σ] [Dependable σ] {target : Target} {settings : Settings}

theorem Coherent.answerOf_eq {locator : Locator σ} (h : Coherent target settings locator)
    {base : Document}
    (hmeaning : locator.document.meaning target settings = base.meaning target settings)
    (name : String) : locator.answerOf target settings name = base.resolve target settings name :=
  answerOf_congr hmeaning h.offer name

theorem Refreshed.bytes_eq {locator locator' : Locator σ}
    (h : Refreshed settings locator locator') : bytes locator'.store = bytes locator.store := by
  cases h with
  | current _ => rfl
  | later _ _ => exact Dependable.bytes_loaded _

/-- A name that is not known yet is resolved by the document whose bytes are in the store. -/
theorem Coherent.getAddress_answer {s : Trail (Locator σ)} (h : Coherent target settings s.state)
    {name : String} (hname : s.state.addresses.get? name = none) :
    (Locator.getAddress target settings name).answer s = (do
      let base ← Document.ofBytes settings.format (bytes s.state.store)
      base.resolve target settings name) := by
  have hresolve {current : Locator σ} (hrefreshed : Refreshed settings s.state current) :
      current.answerOf target settings name = (do
        let base ← Document.ofBytes settings.format (bytes s.state.store)
        base.resolve target settings name) := by
    obtain ⟨hcoherent, hle, -⟩ := hrefreshed.coherent h
    obtain ⟨base, hread, hmeaning⟩ := hcoherent.exists_base hle
    rw [← hrefreshed.bytes_eq, hread, hcoherent.answerOf_eq hmeaning name]
    rfl
  have hends := getAddress_ends name h
  unfold Task.answer
  generalize Locator.getAddress target settings name s = result at hends ⊢
  cases hends with
  | known hknown =>
    rw [hname] at hknown
    cases hknown
  | unloadable _ _ hread =>
    rw [hread]
    rfl
  | failed _ hrefreshed _ hanswer
  | found _ hrefreshed _ hanswer _
  | saved _ hrefreshed _ hanswer _ _ _ => exact hanswer.symm.trans (hresolve hrefreshed)

theorem Coherent.getAddress_answer_of_read {s : Trail (Locator σ)}
    (h : Coherent target settings s.state) {base : Document}
    (hread : Document.ofBytes settings.format (bytes s.state.store) = .ok base)
    {name : String} (hname : s.state.addresses.get? name = none) :
    (Locator.getAddress target settings name).answer s = base.resolve target settings name := by
  rw [h.getAddress_answer hname, hread]
  rfl

/-- As long as the store has no later document, the one in use is asked. -/
theorem Coherent.getAddress_answer_of_current {s : Trail (Locator σ)}
    (h : Coherent target settings s.state) (hcurrent : modified s.state.store ≤ s.state.loadedAt)
    {name : String} (hname : s.state.addresses.get? name = none) :
    (Locator.getAddress target settings name).answer s
      = s.state.answerOf target settings name := by
  obtain ⟨base, hread, hmeaning⟩ := h.exists_base hcurrent
  rw [h.getAddress_answer_of_read hread hname, h.answerOf_eq hmeaning name]

/-- What a locator that is opened over a store answers at first. -/
def openAndGet (target : Target) (settings : Settings) (name : String) (store : σ) :
    Except Error UInt64 :=
  match openStore settings ⟨store, []⟩ with
  | .ok locator t => (getAddress target settings name).answer ⟨locator, t.log⟩
  | .error error _ => .error error

theorem openAndGet_eq (target : Target) (settings : Settings) (name : String) (store : σ) :
    openAndGet target settings name store = (do
      let base ← Document.ofBytes settings.format (bytes store)
      base.resolve target settings name) := by
  unfold openAndGet
  rw [openStore_eq]
  cases hread : Document.ofBytes settings.format (bytes store) with
  | error error => rfl
  | ok document =>
    have hcoherent : Coherent target settings
        (⟨loaded store, document, modified store, {}, settings.registry⟩ : Locator σ) :=
      .of_ofBytes ⟨store, document, modified store, {}, settings.registry⟩
        (fun _ => rfl) hread
    dsimp only
    rw [Coherent.getAddress_answer (s := ⟨_, _⟩) hcoherent rfl, Dependable.bytes_loaded, hread]

theorem openAndGet_of_read {store : σ} {base : Document}
    (hread : Document.ofBytes settings.format (bytes store) = .ok base) (name : String) :
    openAndGet target settings name store = base.resolve target settings name := by
  rw [openAndGet_eq, hread]
  rfl

end Locator

/-- The changes that others make to a store in memory. -/
def HeldStore.Outside (change : HeldStore → HeldStore) : Prop :=
  ∃ bytes, change = fun store => store.edit bytes

namespace Locator

theorem coherent_of_reachable {target : Target} {settings : Settings}
    {s : Trail (Locator HeldStore)} (h : Reachable target settings HeldStore.Outside s) :
    Coherent target settings s.state := by
  refine h.coherent ?_
  rintro _ ⟨bytes, rfl⟩ store
  exact store.lt_modified_edit bytes

section Stored

variable (target : Target) (settings : Settings) {document : Document}
  (hvalid : document.validate settings.format = .ok ()) (hshallow : document.IsShallow)

include hvalid hshallow

theorem ofBytes_stored :
    Document.ofBytes settings.format (Dependable.bytes ({ bytes := document.toBytes } : HeldStore))
      = .ok document.markClean :=
  Document.ofBytes_toBytes hvalid hshallow

/-- A session over a store that holds a valid document. -/
theorem Reachable.stored : Reachable target settings HeldStore.Outside
    ⟨{ store := { bytes := document.toBytes }, document := document.markClean, loadedAt := .epoch,
       registry := settings.registry }, [.store .load, .store .lastModified]⟩ := by
  have hopen := openStore_eq settings ⟨({ bytes := document.toBytes } : HeldStore), []⟩
  rw [ofBytes_stored settings hvalid hshallow] at hopen
  exact .opened hopen

theorem openAndGet_stored (name : String) :
    openAndGet target settings name ({ bytes := document.toBytes } : HeldStore)
      = document.markClean.resolve target settings name :=
  openAndGet_of_read (ofBytes_stored settings hvalid hshallow) name

end Stored

/-- In every state of a session a name that is not known yet gets the answer, be it an address or a
failure, that a locator opened over the same bytes gives. -/
theorem getAddress_eq_openAndGet {target : Target} {settings : Settings}
    {s : Trail (Locator HeldStore)} (h : Reachable target settings HeldStore.Outside s)
    {name : String} (hname : s.state.addresses.contains name = false) {store : HeldStore}
    (hstore : store.bytes = s.state.store.bytes) :
    (getAddress target settings name).answer s = openAndGet target settings name store := by
  have hunknown : s.state.addresses.get? name = none := by
    simpa [Addresses.contains] using hname
  rw [(coherent_of_reachable h).getAddress_answer hunknown, openAndGet_eq]
  exact congrArg (fun bytes => Document.ofBytes settings.format bytes >>= _) hstore.symm

/-- A formula has failed after the search for its pattern, so what was found is not saved, and an
edit was taken back. The name leads to what was found until somebody replaces the document by one
with another signature. -/
theorem getAddress_eq_openAndGet_replaced :
    let target : Target :=
      ⟨⟨0x1000, 4, "1.0"⟩, (⟨0x1000, [0x90, 0x0A, 0x90, 0x0B]⟩ : Buffer).memory, true⟩
    let torn : Formula := .binary "Add" (.pattern "Code") (.constant "none")
    let document : Document :=
      ⟨[⟨"Code", "0A", none⟩], [⟨"Code", none⟩, ⟨"Torn", some torn⟩], false⟩
    let other : Document := ⟨[⟨"Code", "0B", none⟩], [⟨"Code", none⟩], false⟩
    let s := run target {} [.getAddress "Torn", .edit (.addPattern ⟨"Data", "none", none⟩)]
      (⟨{ store := { bytes := document.toBytes }, document, loadedAt := .epoch },
        [.store .load, .store .lastModified]⟩ : Trail (Locator HeldStore))
    let t := run target {} [.outside fun store => store.edit other.toBytes] s
    let fresh : HeldStore := { bytes := other.toBytes }
    s.state.document = ⟨[⟨"Code", "0A", some ⟨"1.0", 1⟩⟩], document.offsets, true⟩
      ∧ (getAddress target {} "Code").answer s = .ok 0x1001
      ∧ Reachable target {} HeldStore.Outside t
      ∧ t.state.addresses.contains "Code" = false
      ∧ (getAddress target {} "Code").answer t = openAndGet target {} "Code" fresh
      ∧ openAndGet target {} "Code" fresh = .ok 0x1003 := by
  intro target torn document other s t fresh
  have hs : Reachable target {} HeldStore.Outside s :=
    Reachable.run (.stored target {} (by decide +kernel) (by decide)) (List.forall_mem_cons.2
      ⟨trivial, List.forall_mem_singleton.2 (Edit.Composed.addPattern _)⟩)
  have hdocument : s.state.document
      = ⟨[⟨"Code", "0A", some ⟨"1.0", 1⟩⟩], document.offsets, true⟩ := by decide +kernel
  have hbefore : (getAddress target {} "Code").answer s = .ok 0x1001 :=
    ((coherent_of_reachable hs).getAddress_answer_of_current (by decide +kernel)
      (by decide +kernel)).trans (by decide +kernel)
  have hunknown : t.state.addresses.contains "Code" = false := by decide +kernel
  have hafter : openAndGet target {} "Code" fresh = .ok 0x1003 :=
    (openAndGet_stored target {} (by decide +kernel) (by decide) "Code").trans (by decide +kernel)
  -- from here on the calls that led to the state need not be run again
  clear_value s
  have ht : Reachable target {} HeldStore.Outside t :=
    hs.run (List.forall_mem_singleton.2 ⟨_, rfl⟩)
  exact ⟨hdocument, hbefore, ht, hunknown, getAddress_eq_openAndGet ht hunknown rfl, hafter⟩

end Locator

end Landmark
