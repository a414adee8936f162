import Mathlib.Tactic.Common
import Landmark.Proofs.Sessions
import Landmark.Proofs.Stores

/-!
# Edits from outside

A journaled store also remembers who read and wrote its bytes, in order; without the journal a
session is the session over the store in memory (`run_forget`). An edit from outside is unread until
a document was loaded after it, and a save is blind if an edit is unread at that time. Resolving,
reloading and resetting never save blindly, for the locator loads the later document first. Editing
does: it saves over whatever is unread (`noneBlind_run_iff`). At every time the document in use
means what the one that was read last does.
-/

namespace Landmark

/-- What was done to the bytes of a store. -/
inductive Entry
  | loaded (bytes : ByteArray)
  | saved (bytes : ByteArray)
  /-- Somebody else has replaced the bytes. -/
  | edited (bytes : ByteArray)

namespace Entry

/-- The document that was read last, in a journal with the newest entry first. -/
def lastRead (format : SignatureFormat) : List Entry → Option Document
  | [] => none
  | .loaded bytes :: earlier =>
    match Document.ofBytes format bytes with
    | .ok document => some document
    | .error _ => lastRead format earlier
  | _ :: earlier => lastRead format earlier

/-- Whether there is an edit from outside after which no document was read. -/
def Unread (format : SignatureFormat) : List Entry → Prop
  | [] => False
  | .edited _ :: _ => True
  | .loaded bytes :: earlier =>
    match Document.ofBytes format bytes with
    | .ok _ => False
    | .error _ => Unread format earlier
  | .saved _ :: earlier => Unread format earlier

/-- Whether every save was made by somebody who had read the last edit from outside. -/
def NoneBlind (format : SignatureFormat) : List Entry → Prop
  | [] => True
  | .saved _ :: earlier => ¬ Unread format earlier ∧ NoneBlind format earlier
  | _ :: earlier => NoneBlind format earlier

variable {format : SignatureFormat} {bytes : ByteArray} {journal : List Entry}

theorem lastRead_loaded_ok {document : Document}
    (h : Document.ofBytes format bytes = .ok document) :
    lastRead format (.loaded bytes :: journal) = some document := by
  rw [lastRead, h]

theorem lastRead_loaded_error {error : Error} (h : Document.ofBytes format bytes = .error error) :
    lastRead format (.loaded bytes :: journal) = lastRead format journal := by
  rw [lastRead, h]

theorem not_unread_loaded_ok {document : Document}
    (h : Document.ofBytes format bytes = .ok document) :
    ¬ Unread format (.loaded bytes :: journal) := by
  rw [Unread, h]
  exact id

theorem unread_loaded_error {error : Error} (h : Document.ofBytes format bytes = .error error) :
    Unread format (.loaded bytes :: journal) ↔ Unread format journal := by
  rw [Unread, h]

end Entry

/-- A store in memory with a journal, newest entry first. -/
structure JournaledStore where
  held : HeldStore := {}
  journal : List Entry := []

namespace JournaledStore

instance : Store JournaledStore where
  lastModified := return (← get).held.modified
  load := do
    let bytes := (← get).held.bytes
    modify fun store => { store with journal := .loaded bytes :: store.journal }
    return bytes
  save bytes := modify fun store =>
    { held := store.held.save bytes, journal := .saved bytes :: store.journal }

instance : Dependable JournaledStore where
  bytes store := store.held.bytes
  modified store := store.held.modified
  loaded store := { store with journal := .loaded store.held.bytes :: store.journal }
  saved bytes store :=
    { held := store.held.save bytes, journal := .saved bytes :: store.journal }
  lastModified_eq _ := rfl
  load_eq _ := rfl
  save_eq _ _ := rfl
  bytes_loaded _ := rfl
  modified_loaded _ := rfl
  bytes_saved _ _ := rfl
  lt_modified_saved _ _ := HeldStore.lt_nextInstant _ _

/-- Replaces the document as someone else would. -/
def edit (store : JournaledStore) (bytes : ByteArray) : JournaledStore :=
  { held := store.held.edit bytes, journal := .edited bytes :: store.journal }

/-- The changes that others make to a journaled store. -/
def Outside (change : JournaledStore → JournaledStore) : Prop :=
  ∃ bytes, change = fun store => store.edit bytes

end JournaledStore

namespace Locator

open Entry (lastRead Unread NoneBlind)
open Dependable (bytes modified loaded saved)

variable {target : Target} {settings : Settings}

/-! ## The journal is kept beside the session -/

/-- A step over the store without its journal. -/
def Move.forget : Move JournaledStore → Move HeldStore
  | .getAddress name => .getAddress name
  | .reset => .reset
  | .reload => .reload
  | .edit e => .edit e
  | .outside change => .outside fun held => (change { held }).held

theorem alike_held : Store.Alike fun (store : JournaledStore) held => store.held = held where
  lastModified := by
    rintro ⟨store, log⟩ ⟨_, log'⟩ rfl
    exact .ok _ rfl
  load := by
    rintro ⟨store, log⟩ ⟨_, log'⟩ rfl
    exact Task.Alike.ok (s := ⟨_, _⟩) _ rfl
  save bytes := by
    rintro ⟨store, log⟩ ⟨_, log'⟩ rfl
    exact Task.Alike.ok (s := ⟨_, _⟩) _ rfl

theorem apply_forget {move : Move JournaledStore} (hallowed : move.Allowed JournaledStore.Outside)
    {s : Trail (Locator JournaledStore)} {t : Trail (Locator HeldStore)}
    (h : Alike (fun store held => store.held = held) s.state t.state) :
    Alike (fun store held => store.held = held) (move.apply target settings s).state
      (move.forget.apply target settings t).state := by
  cases move with
  | getAddress name => exact (getAddress_agree target settings alike_held name).final h
  | reset => exact ⟨h.store, h.document, h.loadedAt, rfl, h.registry⟩
  | reload => exact (reload_agree settings alike_held).final h
  | edit e => exact (edit_agree settings alike_held e).final h
  | outside change =>
    obtain ⟨content, rfl⟩ := hallowed
    refine ⟨?_, h.document, h.loadedAt, h.addresses, h.registry⟩
    change s.state.store.held.edit content = t.state.store.edit content
    rw [h.store]

/-- Without its journal a session is the session over the store in memory. -/
theorem run_forget {moves : List (Move JournaledStore)} :
    ∀ {s : Trail (Locator JournaledStore)} {t : Trail (Locator HeldStore)},
      (∀ move ∈ moves, move.Allowed JournaledStore.Outside) →
        Alike (fun store held => store.held = held) s.state t.state →
          Alike (fun store held => store.held = held) (run target settings moves s).state
            (run target settings (moves.map Move.forget) t).state := by
  induction moves with
  | nil => exact fun _ h => h
  | cons move moves ih =>
    intro s t hallowed h
    rw [List.forall_mem_cons] at hallowed
    exact ih hallowed.2 (apply_forget hallowed.1 h)

/-! ## What is read and what is saved -/

/-- How the journal stands to the document in use. -/
structure Tracked (target : Target) (settings : Settings) (locator : Locator JournaledStore) :
    Prop where
  exists_lastRead : ∃ base, lastRead settings.format locator.store.journal = some base
    ∧ locator.document.meaning target settings = base.meaning target settings
  lt_of_unread : Unread settings.format locator.store.journal →
    locator.loadedAt < locator.store.held.modified

namespace Tracked

/-- A document that was loaded is the one that was read last. -/
theorem of_ofBytes (locator : Locator JournaledStore) {document : Document}
    (h : Document.ofBytes settings.format locator.store.held.bytes = .ok document) :
    Tracked target settings
      { locator with
        store := loaded locator.store
        document
        loadedAt := modified locator.store } where
  exists_lastRead := ⟨document, Entry.lastRead_loaded_ok h, rfl⟩
  lt_of_unread hunread := absurd hunread (Entry.not_unread_loaded_ok h)

/-- What could not be loaded counts as not read. -/
theorem of_ofBytes_error {locator : Locator JournaledStore} {error : Error}
    (h : Tracked target settings locator)
    (herror : Document.ofBytes settings.format locator.store.held.bytes = .error error) :
    Tracked target settings { locator with store := loaded locator.store } where
  exists_lastRead := by
    obtain ⟨base, hread, hmeaning⟩ := h.exists_lastRead
    exact ⟨base, (Entry.lastRead_loaded_error herror).trans hread, hmeaning⟩
  lt_of_unread hunread := h.lt_of_unread ((Entry.unread_loaded_error herror).1 hunread)

theorem evaluated {before after : Locator JournaledStore} (h : Tracked target settings before)
    (he : Evaluated target settings before after) : Tracked target settings after where
  exists_lastRead := by
    obtain ⟨base, hread, hmeaning⟩ := h.exists_lastRead
    rw [he.store_eq]
    exact ⟨base, hread, he.document.meaning_eq.trans hmeaning⟩
  lt_of_unread hunread := by
    rw [he.store_eq] at hunread ⊢
    rw [he.loadedAt_eq]
    exact h.lt_of_unread hunread

/-- After a refresh nothing from outside is unread. -/
theorem refreshed {locator current : Locator JournaledStore} (h : Tracked target settings locator)
    (hrefreshed : Refreshed settings locator current) : Tracked target settings current
      ∧ ¬ Unread settings.format current.store.journal
      ∧ (NoneBlind settings.format current.store.journal
        ↔ NoneBlind settings.format locator.store.journal) := by
  cases hrefreshed with
  | current hle => exact ⟨h, fun hunread => Int.not_lt.2 hle (h.lt_of_unread hunread), Iff.rfl⟩
  | later _ hread => exact ⟨.of_ofBytes locator hread, Entry.not_unread_loaded_ok hread, Iff.rfl⟩

end Tracked

/-- Whether a step saves over an edit from outside that is unread. Only edits do. -/
def Move.Blind (settings : Settings) (locator : Locator JournaledStore) :
    Move JournaledStore → Prop
  | .edit e => Saves settings e locator.document
    ∧ Unread settings.format locator.store.journal
  | _ => False

/-- What a step comes to: the journal stays tracked, and a blind save is added if the step is
blind. -/
structure Tracks (target : Target) (settings : Settings) (blind : Prop)
    (before after : Locator JournaledStore) : Prop where
  tracked : Tracked target settings after
  noneBlind_iff : NoneBlind settings.format after.store.journal
    ↔ NoneBlind settings.format before.store.journal ∧ ¬ blind

theorem Tracks.of_not_blind {blind : Prop} {before after : Locator JournaledStore}
    (hblind : ¬ blind) (h : Tracked target settings after)
    (hnone : NoneBlind settings.format after.store.journal
      ↔ NoneBlind settings.format before.store.journal) :
    Tracks target settings blind before after :=
  ⟨h, hnone.trans (and_iff_left hblind).symm⟩

theorem Tracks.getAddress {s : Trail (Locator JournaledStore)}
    (hcoherent : Coherent target settings s.state) (h : Tracked target settings s.state)
    (name : String) :
    Tracks target settings False s.state ((getAddress target settings name).final s).state := by
  have hends := getAddress_ends name hcoherent
  unfold Task.final
  generalize Locator.getAddress target settings name s = result at hends ⊢
  cases hends with
  | known _ => exact .of_not_blind id h Iff.rfl
  | unloadable _ _ hread => exact .of_not_blind id (h.of_ofBytes_error hread) Iff.rfl
  | failed _ hrefreshed hevaluated _ =>
    obtain ⟨htracked, -, hnone⟩ := h.refreshed hrefreshed
    refine .of_not_blind id (htracked.evaluated hevaluated) ?_
    rw [hevaluated.store_eq, hnone]
  | found _ hrefreshed hevaluated _ _ =>
    obtain ⟨htracked, -, hnone⟩ := h.refreshed hrefreshed
    obtain ⟨hlast, hlt⟩ := htracked.evaluated hevaluated
    refine .of_not_blind id ⟨hlast, hlt⟩ ?_
    dsimp only
    rw [hevaluated.store_eq, hnone]
  | @saved _ after address _ _ hrefreshed hevaluated _ _ hvalid hshallow =>
    obtain ⟨-, hread, hnone⟩ := h.refreshed hrefreshed
    refine .of_not_blind id (.of_ofBytes { after with
      store := saved after.document.toBytes after.store
      addresses := (after.addresses.insert name address).2 }
      (Document.ofBytes_toBytes hvalid hshallow)) ?_
    change (¬ Unread settings.format after.store.journal
      ∧ NoneBlind settings.format after.store.journal) ↔ _
    rw [hevaluated.store_eq, hnone, and_iff_right hread]

theorem Tracks.reload {s : Trail (Locator JournaledStore)} (h : Tracked target settings s.state) :
    Tracks target settings False s.state ((reload settings).final s).state := by
  rw [Task.final, reload_eq]
  cases hread : Document.ofBytes settings.format (bytes s.state.store) with
  | error _ => exact .of_not_blind id (h.of_ofBytes_error hread) Iff.rfl
  | ok _ => exact .of_not_blind id (.of_ofBytes s.state hread) Iff.rfl

/-- A save is blind exactly if the edit that comes to it is. -/
theorem noneBlind_of_saves {α : Type} {e : Edit α} {locator : Locator JournaledStore}
    (h : Saves settings e locator.document) :
    ¬ Unread settings.format locator.store.journal
        ∧ NoneBlind settings.format locator.store.journal
      ↔ NoneBlind settings.format locator.store.journal
        ∧ ¬ Move.Blind settings locator (.edit e) := by
  rw [Move.Blind, and_iff_right h]
  exact and_comm

theorem Tracks.edit {α : Type} {e : Edit α} {s : Trail (Locator JournaledStore)}
    (hcoherent : Coherent target settings s.state) (h : Tracked target settings s.state)
    (he : e.Composed) :
    Tracks target settings (Move.Blind settings s.state (.edit e)) s.state
      ((edit settings e).final s).state := by
  have hends := edit_ends settings e s
  unfold Task.final
  generalize Locator.edit settings e s = result at hends ⊢
  cases hends with
  | refused _ hnot => exact .of_not_blind (fun hblind => hnot hblind.1) h Iff.rfl
  | @unmarked a d hedit hclean =>
    have hsaves : ¬ Saves settings e s.state.document := by
      rw [saves_iff hedit, hclean]
      exact fun h => Bool.false_ne_true h.1
    cases he.eq_of_unmarked hedit hclean
    exact .of_not_blind (fun hblind => hsaves hblind.1) h Iff.rfl
  | @saved a d _ hedit hdirty hvalid hshallow =>
    have hsaves : Saves settings e s.state.document := ⟨a, d, hedit, hdirty, hvalid⟩
    exact ⟨.of_ofBytes { s.state with store := saved d.toBytes s.state.store }
      (Document.ofBytes_toBytes hvalid hshallow), noneBlind_of_saves hsaves⟩
  | @unreadable a d _ fault hedit hdirty hvalid _ hread =>
    have hsaves : Saves settings e s.state.document := ⟨a, d, hedit, hdirty, hvalid⟩
    obtain ⟨hlast, -⟩ := h
    have hlt := Int.lt_of_le_of_lt hcoherent.loadedAt_le
      (Dependable.lt_modified_saved d.toBytes s.state.store)
    have htracked : Tracked target settings
        { s.state with store := saved d.toBytes s.state.store } := ⟨hlast, fun _ => hlt⟩
    exact ⟨htracked.of_ofBytes_error hread, noneBlind_of_saves hsaves⟩

theorem Tracks.apply {s : Trail (Locator JournaledStore)}
    (hcoherent : Coherent target settings s.state) (h : Tracked target settings s.state)
    {move : Move JournaledStore} (hallowed : move.Allowed JournaledStore.Outside) :
    Tracks target settings (move.Blind settings s.state) s.state
      (move.apply target settings s).state := by
  cases move with
  | getAddress name => exact .getAddress hcoherent h name
  | reset => exact .of_not_blind id ⟨h.exists_lastRead, h.lt_of_unread⟩ Iff.rfl
  | reload => exact .reload h
  | edit e => exact .edit hcoherent h hallowed
  | outside change =>
    obtain ⟨content, rfl⟩ := hallowed
    have hlt := Int.lt_of_le_of_lt hcoherent.loadedAt_le
      (s.state.store.held.lt_modified_edit content)
    exact .of_not_blind id ⟨h.exists_lastRead, fun _ => hlt⟩ Iff.rfl

theorem Reachable.coherent_tracked {s : Trail (Locator JournaledStore)}
    (h : Reachable target settings JournaledStore.Outside s) :
    Coherent target settings s.state ∧ Tracked target settings s.state := by
  have hothers : ∀ change, JournaledStore.Outside change →
      ∀ store, modified store < modified (change store) := by
    rintro _ ⟨content, rfl⟩ store
    exact store.held.lt_modified_edit content
  induction h with
  | @opened s t locator hopen =>
    refine ⟨(Reachable.opened hopen).coherent hothers, ?_⟩
    rw [openStore_eq] at hopen
    cases hread : Document.ofBytes settings.format (bytes s.state) with
    | error e =>
      rw [hread] at hopen
      cases hopen
    | ok document =>
      rw [hread] at hopen
      cases hopen
      exact .of_ofBytes ⟨s.state, document, modified s.state, {}, settings.registry⟩ hread
  | move m hallowed hs ih =>
    exact ⟨(Reachable.move m hallowed hs).coherent hothers,
      (Tracks.apply ih.1 ih.2 hallowed).tracked⟩

theorem noneBlind_run {moves : List (Move JournaledStore)} :
    ∀ {s : Trail (Locator JournaledStore)},
      Reachable target settings JournaledStore.Outside s →
      (∀ move ∈ moves, move.Allowed JournaledStore.Outside) →
        (NoneBlind settings.format (run target settings moves s).state.store.journal
          ↔ NoneBlind settings.format s.state.store.journal
            ∧ ∀ earlier move later, moves = earlier ++ move :: later →
              ¬ move.Blind settings (run target settings earlier s).state) := by
  induction moves with
  | nil => intro s _ _; simp [run]
  | cons move moves ih =>
    intro s hs hallowed
    rw [List.forall_mem_cons] at hallowed
    have hstep := Tracks.apply hs.coherent_tracked.1 hs.coherent_tracked.2 hallowed.1
    have hrest := ih (.move move hallowed.1 hs) hallowed.2
    refine hrest.trans ?_
    rw [hstep.noneBlind_iff, and_assoc]
    refine and_congr_right fun _ => ⟨?_, fun h => ⟨h [] move moves rfl, ?_⟩⟩
    · rintro ⟨hfirst, hlater⟩ earlier other later heq
      cases earlier with
      | nil =>
        cases heq
        exact hfirst
      | cons first earlier =>
        cases heq
        exact hlater earlier other later rfl
    · rintro earlier other later rfl
      exact h (move :: earlier) other later rfl

/-- A session saves nothing blindly exactly if each of its edits that saves finds nothing unread;
and at its end the document in use means what the document that was read last does. -/
theorem noneBlind_run_iff {held : HeldStore} {log : List Event}
    {locator : Locator JournaledStore} {t : Trail JournaledStore}
    (hopen : openStore settings ⟨{ held }, log⟩ = .ok locator t)
    {moves : List (Move JournaledStore)}
    (hallowed : ∀ move ∈ moves, move.Allowed JournaledStore.Outside) :
    let after := run target settings moves ⟨locator, t.log⟩
    (NoneBlind settings.format after.state.store.journal
        ↔ ∀ (earlier : List (Move JournaledStore)) (α : Type) (e : Edit α)
            (later : List (Move JournaledStore)), moves = earlier ++ .edit e :: later →
          let before := run target settings earlier ⟨locator, t.log⟩
          Saves settings e before.state.document →
            ¬ Unread settings.format before.state.store.journal)
      ∧ ∃ base, lastRead settings.format after.state.store.journal = some base
        ∧ after.state.document.meaning target settings = base.meaning target settings := by
  intro after
  have hs : Reachable target settings JournaledStore.Outside ⟨locator, t.log⟩ := .opened hopen
  have hnone : NoneBlind settings.format locator.store.journal := by
    rw [openStore_eq] at hopen
    cases hread : Document.ofBytes settings.format (bytes ({ held } : JournaledStore)) <;>
      rw [hread] at hopen <;> cases hopen
    trivial
  refine ⟨(noneBlind_run hs hallowed).trans ((and_iff_right hnone).trans ⟨?_, ?_⟩), ?_⟩
  · intro h earlier α e later heq before hsaves hunread
    exact h earlier (.edit e) later heq ⟨hsaves, hunread⟩
  · intro h earlier move later heq hblind
    cases move with
    | edit e => exact h earlier _ e later heq hblind.1 hblind.2
    | getAddress | reset | reload | outside => exact hblind
  · exact (hs.run hallowed).coherent_tracked.2.exists_lastRead

/-- An edit right after a locator was opened has nothing from outside to save over. -/
theorem noneBlind_run_iff_edit_first :
    let target : Target := ⟨⟨0x1000, 0, "1.0"⟩, ⟨fun _ _ => .ok [], fun _ _ => none, 8⟩, false⟩
    let s : Trail (Locator JournaledStore) :=
      ⟨{ store := { journal := [.loaded .empty] }, document := {}, loadedAt := .epoch },
        [.store .load, .store .lastModified]⟩
    NoneBlind {} (run target {} [.edit (.addOffset ⟨"Ours", none⟩),
      .outside fun store => store.edit ⟨#[0x20]⟩] s).state.store.journal := by
  intro target s
  have hopen : openStore {} ⟨({} : JournaledStore), []⟩ = .ok s.state ⟨s.state.store, s.log⟩ :=
    openStore_empty ({} : JournaledStore) rfl
  have houtside : Move.Allowed JournaledStore.Outside
      (.outside fun store => store.edit ⟨#[0x20]⟩) := ⟨_, rfl⟩
  have hedit : Move.Allowed JournaledStore.Outside (.edit (.addOffset ⟨"Ours", none⟩)) :=
    Edit.Composed.addOffset _
  have hallowed := List.forall_mem_cons.2 ⟨hedit, List.forall_mem_singleton.2 houtside⟩
  refine (noneBlind_run_iff hopen hallowed).1.2 fun earlier α e later heq => ?_
  match earlier, heq with
  | [], _ => exact fun _ => Entry.not_unread_loaded_ok (Document.ofBytes_empty _)
  | [_], heq => simp at heq
  | _ :: _ :: _, heq => simp at heq

/-- A document is replaced from outside between two calls, and the edit that comes then saves over
it. -/
theorem not_noneBlind_edit_after_outside :
    let target : Target := ⟨⟨0x1000, 0, "1.0"⟩, ⟨fun _ _ => .ok [], fun _ _ => none, 8⟩, false⟩
    let s : Trail (Locator JournaledStore) :=
      ⟨{ store := { journal := [.loaded .empty] }, document := {}, loadedAt := .epoch },
        [.store .load, .store .lastModified]⟩
    Reachable target {} JournaledStore.Outside s
      ∧ (Edit.addOffset ⟨"Ours", none⟩).Composed
      ∧ ¬ NoneBlind {} (run target {} [.outside fun store => store.edit ⟨#[0x20]⟩,
        .edit (.addOffset ⟨"Ours", none⟩)] s).state.store.journal := by
  intro target s
  have hopen : openStore {} ⟨({} : JournaledStore), []⟩ = .ok s.state ⟨s.state.store, s.log⟩ :=
    openStore_empty ({} : JournaledStore) rfl
  have hs : Reachable target {} JournaledStore.Outside s := .opened hopen
  refine ⟨hs, .addOffset _, fun hnone => ?_⟩
  have houtside : Move.Allowed JournaledStore.Outside
      (.outside fun store => store.edit ⟨#[0x20]⟩) := ⟨_, rfl⟩
  have hedit : Move.Allowed JournaledStore.Outside (.edit (.addOffset ⟨"Ours", none⟩)) :=
    Edit.Composed.addOffset _
  have hallowed := List.forall_mem_cons.2 ⟨houtside, List.forall_mem_singleton.2 hedit⟩
  have hall := (noneBlind_run hs hallowed).1 hnone
  exact hall.2 [.outside fun store => store.edit ⟨#[0x20]⟩] (.edit (.addOffset ⟨"Ours", none⟩)) []
    rfl ⟨⟨0, ⟨[], [⟨"Ours", none⟩], true⟩, rfl, rfl, by decide⟩, trivial⟩

end Locator

end Landmark
