import Mathlib.Tactic.Common
import Landmark.Proofs.Findings
import Landmark.Proofs.Unsteady

/-!
# Sessions that only resolve

Nobody writes a store but the locator, and the locator is only asked for addresses and reset. Then
the document in use is never replaced by another one: unless it has unsaved findings it is the one
in the store, and with unsaved findings it is never given up (`Kept.eq_of_due`). So a fact of the
document and of the log that lasts through lookups and store calls holds in the whole session, and
of the stored document as well (`Kept.path`).
-/

namespace Landmark

namespace Locator

variable {σ : Type}

/-- Steps that look for addresses or forget them. -/
def Move.Resolves : Move σ → Prop
  | .getAddress _ => True
  | .reset => True
  | _ => False

variable {target : Target} {settings : Settings}

/-- The offsets that are evaluated in a session. -/
def EvaluatedIn (target : Target) (settings : Settings) (moves : List (Move UnsteadyStore))
    (s : Trail (Locator UnsteadyStore)) (entry : OffsetEntry) : Prop :=
  ∃ earlier name later, moves = earlier ++ .getAddress name :: later
    ∧ Evaluates settings (run target settings earlier s) name entry

/-- A session that only resolves is a path of phases. -/
theorem run_path {moves : List (Move UnsteadyStore)} : ∀ {s : Trail (Locator UnsteadyStore)},
    (∀ move ∈ moves, move.Resolves) →
      Path target settings (EvaluatedIn target settings moves s) s
        (run target settings moves s) := by
  induction moves with
  | nil => exact fun _ => .refl
  | cons move moves ih =>
    intro s hmoves
    rw [List.forall_mem_cons] at hmoves
    refine .trans ?_ ((ih hmoves.2).mono ?_)
    · cases move with
      | getAddress name =>
        exact (getAddress_path name).mono fun entry hentry => ⟨[], name, moves, rfl, hentry⟩
      | reset => exact .single (.named {})
      | reload | edit | outside => exact hmoves.1.elim
    · rintro entry ⟨earlier, name, later, rfl, hevaluates⟩
      exact ⟨move :: earlier, name, later, rfl, hevaluates⟩

/-- Facts of a document and of the log that hold on when a store is called, when the document is
saved and when given offsets are evaluated. -/
structure Enduring (target : Target) (settings : Settings) (evaluated : OffsetEntry → Prop)
    (I : Trail Document → Prop) : Prop where
  store : ∀ s call, I s → I ⟨s.state, .store call :: s.log⟩
  markClean : ∀ s, I s → I ⟨s.state.markClean, s.log⟩
  lasting : ∀ entry, evaluated entry →
    Document.Lasting target settings I entry.formula.references

theorem enduring_trivial {evaluated : OffsetEntry → Prop} :
    Enduring target settings evaluated fun _ => True where
  store _ _ h := h
  markClean _ h := h
  lasting _ _ := ⟨fun _ _ h => h, fun _ _ _ h => h, fun _ _ h => h, fun _ _ _ _ _ _ h => h,
    fun _ _ _ _ _ _ _ _ _ _ h => h⟩

/-- How the document in use stands to the stored one, and what holds of both. -/
structure Kept (settings : Settings) (I : Trail Document → Prop)
    (s : Trail (Locator UnsteadyStore)) : Prop where
  holds : I ⟨s.state.document, s.log⟩
  valid : s.state.document.validate settings.format = .ok ()
  shallow : s.state.document.IsShallow
  exists_base : ∃ base log,
    Document.ofBytes settings.format s.state.store.held.bytes = .ok base ∧ I ⟨base, log⟩
      ∧ (s.state.document.dirty = false → s.state.document = base)
  clean_of_lt : s.state.loadedAt < s.state.store.held.modified → s.state.document.dirty = false

namespace Kept

variable {I : Trail Document → Prop} {s t : Trail (Locator UnsteadyStore)}
  {evaluated : OffsetEntry → Prop}

/-- A document that is loaded is the one in use. -/
theorem eq_of_due (h : Kept settings I s) {document : Document}
    (hdue : s.state.loadedAt < s.state.store.held.modified ∨ s.state.document.dirty = false)
    (hread : Document.ofBytes settings.format s.state.store.held.bytes = .ok document) :
    document = s.state.document := by
  obtain ⟨base, log, hbase, -, heq⟩ := h.exists_base
  rw [hread] at hbase
  cases hbase
  exact (heq (hdue.elim h.clean_of_lt id)).symm

theorem evaluated_phase (h : Kept settings I s) {entry : OffsetEntry}
    (hlasting : Document.Lasting target settings I entry.formula.references)
    (hcurrent : s.state.store.held.modified ≤ s.state.loadedAt) :
    Kept settings I ((evaluate target settings entry.formula).final s) := by
  have hholds := evaluate_keeps (σ := UnsteadyStore) hlasting h.holds
  have hev := evaluated_final target settings entry.formula s
  generalize (evaluate target settings entry.formula).final s = t at hholds hev ⊢
  have hmeaning := hev.document.meaning_eq
  refine ⟨hholds, (Document.validate_congr hmeaning _).trans h.valid,
    (Document.isShallow_congr (congrArg Prod.snd hmeaning)).2 h.shallow, ?_, fun hlt => ?_⟩
  · obtain ⟨base, log, hread, hbase, heq⟩ := h.exists_base
    refine ⟨base, log, hev.store_eq ▸ hread, hbase, fun hclean => ?_⟩
    have hsame := hev.document.eq_of_unmarked hclean
    rw [hsame] at hclean ⊢
    exact heq hclean
  · rw [hev.store_eq, hev.loadedAt_eq] at hlt
    exact absurd hlt (Int.not_lt.2 hcurrent)

theorem phase (h : Kept settings I s) (hI : Enduring target settings evaluated I)
    (hphase : Phase target settings evaluated s t) : Kept settings I t := by
  cases hphase with
  | asked event _ | unreadable _ =>
    exact ⟨hI.store _ _ h.holds, h.valid, h.shallow, h.exists_base, h.clean_of_lt⟩
  | took hdue hread =>
    have heq := h.eq_of_due hdue hread
    subst heq
    exact ⟨hI.store _ _ h.holds, h.valid, h.shallow, ⟨_, s.log, hread, h.holds, fun _ => rfl⟩,
      fun hlt => absurd hlt (Int.lt_irrefl _)⟩
  | gave _ _ =>
    have hsaved := Document.ofBytes_toBytes h.valid h.shallow
    exact ⟨hI.store _ _ (hI.markClean _ h.holds), h.valid, h.shallow,
      ⟨_, s.log, hsaved, hI.markClean _ h.holds, fun _ => rfl⟩, fun _ => rfl⟩
  | @evaluated entry hentry hcurrent => exact h.evaluated_phase (hI.lasting entry hentry) hcurrent
  | named _ => exact ⟨h.holds, h.valid, h.shallow, h.exists_base, h.clean_of_lt⟩

theorem path (h : Kept settings I s) (hI : Enduring target settings evaluated I)
    (hpath : Path target settings evaluated s t) : Kept settings I t := by
  induction hpath with
  | refl => exact h
  | tail _ hphase ih => exact ih.phase hI hphase

theorem opened {store : UnsteadyStore} {log : List Event} {locator : Locator UnsteadyStore}
    {t : Trail UnsteadyStore} (hopen : openStore settings ⟨store, log⟩ = .ok locator t)
    (hI : I ⟨locator.document, t.log⟩) : Kept settings I ⟨locator, t.log⟩ := by
  obtain ⟨document, hread, -, -, rfl, rfl⟩ := openStore_eq_ok hopen
  obtain ⟨hvalid, hshallow, -⟩ := Document.of_ofBytes_eq_ok hread
  exact ⟨hI, hvalid, hshallow, ⟨document, _, hread, hI, fun _ => rfl⟩,
    fun hlt => absurd hlt (Int.lt_irrefl _)⟩

end Kept

end Locator

end Landmark
