import Mathlib.Tactic.Common
import Mathlib.Data.List.Nodup
import Landmark.Operator.Registry

/-!
# What a registry offers

A registry answers for an identifier with its own operator or else with the built-in one, and
binding the built-in operators, whenever that happens, changes no answer (`lookup_withBuiltins`,
`respects_sameOffer`).
-/

namespace Landmark

namespace Registry

theorem lookup_cons (identifier : String) (operator : Operator)
    (entries : List (String × Operator)) (wanted : String) :
    ((identifier, operator) :: entries).lookup wanted
      = if wanted = identifier then some operator else entries.lookup wanted := by
  rw [List.lookup_cons]
  split
  · rename_i h
    rw [if_pos (eq_of_beq h)]
  · rename_i h
    rw [if_neg (ne_of_beq_false h)]

theorem lookup_bind (identifier : String) (operator : Operator) (wanted : String) :
    ∀ entries, (bind identifier operator entries).lookup wanted
      = if wanted = identifier then some operator else entries.lookup wanted
  | [] => lookup_cons identifier operator [] wanted
  | (other, operator') :: entries => by
    have ih := lookup_bind identifier operator wanted entries
    unfold bind
    split_ifs with hsame hless hwanted hwanted <;> simp only [lookup_cons] at * <;> simp_all

theorem lookup_insert (registry : Registry) (identifier : String) (operator : Operator)
    (wanted : String) : (registry.insert identifier operator).lookup wanted
      = if wanted = identifier then some operator else registry.lookup wanted :=
  lookup_bind identifier operator wanted registry.entries

theorem lookup_foldl_insert (wanted : String) :
    ∀ (entries : List (String × Operator)) (registry : Registry),
      (entries.map Prod.fst).Nodup →
        (entries.foldl (fun r entry => r.insert entry.1 entry.2) registry).lookup wanted
          = (entries.lookup wanted).or (registry.lookup wanted)
  | [], registry, _ => by simp
  | (identifier, operator) :: entries, registry, h => by
    rw [List.map_cons, List.nodup_cons] at h
    rw [List.foldl_cons, lookup_foldl_insert wanted entries _ h.2, lookup_insert, lookup_cons]
    split_ifs with hwanted
    · have hnone : entries.lookup wanted = none := by
        rw [List.lookup_eq_none_iff]
        intro entry hmem
        rw [hwanted, bne_iff_ne]
        rintro heq
        exact h.1 (heq ▸ List.mem_map_of_mem (f := Prod.fst) hmem)
      rw [hnone, Option.none_or, Option.some_or]
    · rfl

theorem lookup_filter (keep : String → Bool) (wanted : String) :
    ∀ entries : List (String × Operator), (entries.filter fun entry => keep entry.1).lookup wanted
      = if keep wanted then entries.lookup wanted else none
  | [] => by simp
  | (identifier, operator) :: entries => by
    have ih := lookup_filter keep wanted entries
    rw [lookup_cons]
    by_cases hwanted : wanted = identifier
    · subst hwanted
      cases hkeep : keep wanted <;> simp [hkeep, ih]
    · cases hkeep : keep identifier <;> simp [hkeep, hwanted, lookup_cons, ih]

/-- A registry's own operators come before the built-in ones. -/
theorem lookup_withBuiltins (registry : Registry) (wanted : String) :
    registry.withBuiltins.lookup wanted
      = (registry.lookup wanted).or (Operator.builtins.lookup wanted) := by
  have hnodup : (registry.missingBuiltins.map Prod.fst).Nodup :=
    List.Nodup.sublist (List.filter_sublist.map Prod.fst) (by decide)
  unfold withBuiltins
  rw [lookup_foldl_insert wanted _ _ hnodup, missingBuiltins,
    lookup_filter (fun identifier => !registry.isRegistered identifier), isRegistered]
  cases registry.lookup wanted <;> simp

/-- Registries that come to the same once the built-in operators have joined them. -/
def SameOffer (r r' : Registry) : Prop :=
  ∀ identifier, r.withBuiltins.lookup identifier = r'.withBuiltins.lookup identifier

theorem sameOffer_withBuiltins (registry : Registry) :
    registry.withBuiltins.SameOffer registry := by
  intro identifier
  rw [lookup_withBuiltins, lookup_withBuiltins, Option.or_assoc, Option.or_self]

theorem missingBuiltins_withBuiltins (registry : Registry) :
    registry.withBuiltins.missingBuiltins = [] := by
  refine List.filter_eq_nil_iff.2 fun entry hmem => ?_
  have hbuiltin : (Operator.builtins.lookup entry.1).isSome := by
    rw [Option.isSome_iff_ne_none, ne_eq, List.lookup_eq_none_iff]
    exact fun h => bne_iff_ne.1 (h entry hmem) rfl
  simp [isRegistered, lookup_withBuiltins, hbuiltin]

theorem withBuiltins_withBuiltins (registry : Registry) :
    registry.withBuiltins.withBuiltins = registry.withBuiltins := by
  rw [withBuiltins.eq_def registry.withBuiltins, missingBuiltins_withBuiltins, List.foldl_nil]

theorem run_resolve (identifier : String) (registry : Registry) :
    (resolve identifier).run registry = match registry.lookup identifier with
      | some operator => (.ok operator, registry)
      | none => match registry.withBuiltins.lookup identifier with
        | some operator => (.ok operator, registry.withBuiltins)
        | none => (.error (.unknownOperator identifier), registry.withBuiltins) := by
  change (match registry.lookup identifier with | some _ => _ | none => _ : StateM _ _) registry = _
  cases registry.lookup identifier with
  | some operator => rfl
  | none =>
    change (match registry.withBuiltins.lookup identifier with
      | some _ => _ | none => _ : StateM _ _) registry.withBuiltins = _
    cases registry.withBuiltins.lookup identifier <;> rfl

/-- Resolving an identifier leaves the registry alone or brings all built-in operators in. -/
theorem run_resolve_registry (identifier : String) (registry : Registry) :
    ((resolve identifier).run registry).2 = registry
      ∨ ((resolve identifier).run registry).2 = registry.withBuiltins := by
  rw [run_resolve]
  cases registry.lookup identifier with
  | some operator => exact .inl rfl
  | none => cases registry.withBuiltins.lookup identifier <;> exact .inr rfl

/-- Relations of registries that resolve alike and stay related. -/
def Respects (P : Registry → Registry → Prop) : Prop :=
  ∀ identifier r r', P r r' →
    ((resolve identifier).run r).1 = ((resolve identifier).run r').1
      ∧ P ((resolve identifier).run r).2 ((resolve identifier).run r').2

theorem respects_eq : Respects Eq := by
  rintro identifier r _ rfl
  exact ⟨rfl, rfl⟩

/-- What an identifier is resolved to depends on what the registry offers, which stays the same. -/
theorem run_resolve_spec (identifier : String) (registry : Registry) :
    ((resolve identifier).run registry).1
        = (registry.withBuiltins.lookup identifier).elim (.error (.unknownOperator identifier)) .ok
      ∧ ((resolve identifier).run registry).2.SameOffer registry := by
  rw [run_resolve]
  cases hown : registry.lookup identifier with
  | some operator =>
    rw [lookup_withBuiltins, hown]
    exact ⟨rfl, fun _ => rfl⟩
  | none =>
    cases registry.withBuiltins.lookup identifier <;>
      exact ⟨rfl, registry.sameOffer_withBuiltins⟩

theorem respects_sameOffer (offer : Registry) :
    Respects fun r r' => r.SameOffer offer ∧ r'.SameOffer offer := by
  rintro identifier r r' ⟨h, h'⟩
  obtain ⟨hanswer, hoffer⟩ := run_resolve_spec identifier r
  obtain ⟨hanswer', hoffer'⟩ := run_resolve_spec identifier r'
  refine ⟨?_, fun i => (hoffer i).trans (h i), fun i => (hoffer' i).trans (h' i)⟩
  rw [hanswer, hanswer', h identifier, h' identifier]

/-- A registry, or what it becomes when the built-in operators join it, beside the latter. -/
def Completed (own r r' : Registry) : Prop :=
  (r = own ∨ r = own.withBuiltins) ∧ r' = own.withBuiltins

theorem Completed.sameOffer {own r r' : Registry} (h : Completed own r r') : r.SameOffer r' := by
  obtain ⟨rfl | rfl, rfl⟩ := h
  · exact fun identifier => (r.sameOffer_withBuiltins identifier).symm
  · exact fun _ => rfl

theorem respects_completed (own : Registry) : Respects (Completed own) := by
  intro identifier r r' h
  constructor
  · rw [(run_resolve_spec identifier r).1, (run_resolve_spec identifier r').1,
      h.sameOffer identifier]
  · obtain ⟨hlate, rfl⟩ := h
    constructor
    · obtain hsame | hjoined := run_resolve_registry identifier r
      · rwa [hsame]
      · obtain rfl | rfl := hlate
        · exact .inr hjoined
        · exact .inr (hjoined.trans (withBuiltins_withBuiltins own))
    · obtain hsame | hjoined := run_resolve_registry identifier own.withBuiltins
      · exact hsame
      · exact hjoined.trans (withBuiltins_withBuiltins own)

end Registry

end Landmark
