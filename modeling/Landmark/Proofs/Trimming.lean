import Mathlib.Data.List.DropRight
import Mathlib.Tactic.Common
import Landmark.Proofs.Skipping

/-!
# Signatures cut to their significant part

A signature is trimmed if it begins and ends with significant places or is empty. Cutting leaves
such a signature as it is (`IsTrimmed.trimmed_eq`) and gives nothing else
(`isTrimmed_of_trimmed`). What stands under the wildcards makes no difference to cutting, nor to any
matcher, so a signature may as well be blanked there (`trimmed_blanked`, `apply_blanked`).
-/

namespace Landmark

/-- Cutting a list at its end leaves its first element where it is. -/
theorem dropWhile_rdropWhile_eq {α : Type} {p : α → Bool} {l : List α} (h : l.dropWhile p = l) :
    (l.rdropWhile p).dropWhile p = l.rdropWhile p := by
  rw [List.dropWhile_eq_self_iff] at h ⊢
  intro hpos
  have hbegins := List.rdropWhile_prefix p l
  rw [hbegins.getElem hpos]
  exact h (hpos.trans_le hbegins.length_le)

/-- Cutting both ends of a list leaves the one middle part that cannot be cut and has nothing but
elements to cut around it. -/
theorem rdropWhile_dropWhile_eq_iff {α : Type} {p : α → Bool} {l middle : List α} :
    (l.dropWhile p).rdropWhile p = middle ↔
      (middle.dropWhile p = middle ∧ middle.rdropWhile p = middle)
        ∧ ∃ before after, l = before ++ middle ++ after ∧ ∀ x ∈ before ++ after, p x = true := by
  constructor
  · rintro rfl
    refine ⟨⟨dropWhile_rdropWhile_eq (List.dropWhile_idempotent p l),
      List.rdropWhile_idempotent p _⟩, l.takeWhile p, (l.dropWhile p).rtakeWhile p, ?_,
      fun x hx => ?_⟩
    · rw [List.append_assoc, List.rdropWhile_append_rtakeWhile, List.takeWhile_append_dropWhile]
    · rcases List.mem_append.1 hx with hfront | hend
      · exact List.mem_takeWhile_imp hfront
      · exact List.mem_rtakeWhile_imp hend
  · rintro ⟨⟨hfirst, hlast⟩, before, after, rfl, h⟩
    have hbefore : ∀ x ∈ before, p x = true := fun x hx => h x (List.mem_append_left _ hx)
    have hafter : ∀ x ∈ after, p x = true := fun x hx => h x (List.mem_append_right _ hx)
    have hreverse (l : List α) : (l ++ after).rdropWhile p = l.rdropWhile p := by
      rw [List.rdropWhile, List.reverse_append,
        List.dropWhile_append_of_pos fun x hx => hafter x (List.mem_reverse.1 hx)]
      rfl
    rw [List.append_assoc, List.dropWhile_append_of_pos hbefore, List.dropWhile_append, hfirst]
    rcases middle with _ | ⟨x, middle⟩
    · simp [List.dropWhile_eq_nil_iff.2 hafter]
    · rw [if_neg (by simp), hreverse, hlast]

/-- The place with the placeholder that reading gives to wildcards. -/
def Place.blanked (place : Place) : Place :=
  if place.significant then place else .wildcard

@[simp]
theorem Place.significant_blanked (place : Place) :
    place.blanked.significant = place.significant := by
  cases h : place.significant <;> simp [blanked, wildcard, h]

theorem Place.admits_blanked (place : Place) : place.blanked.admits = place.admits := by
  funext byte
  cases h : place.significant <;> simp [blanked, admits, wildcard, h]

namespace Signature

/-- Whether a signature begins and ends with significant places, unless it has no places. -/
def IsTrimmed (s : Signature) : Prop :=
  (∀ place ∈ s.places.head?, place.significant = true)
    ∧ ∀ place ∈ s.places.getLast?, place.significant = true

instance (s : Signature) : Decidable s.IsTrimmed :=
  inferInstanceAs (Decidable (_ ∧ _))

/-- The signature with the placeholder zero under every wildcard. -/
def blanked (s : Signature) : Signature :=
  ⟨s.places.map Place.blanked⟩

/-! ## Cutting -/

theorem isTrimmed_iff {places : List Place} :
    IsTrimmed ⟨places⟩ ↔ places.dropWhile (fun place => !place.significant) = places
      ∧ places.rdropWhile (fun place => !place.significant) = places := by
  rw [IsTrimmed, List.dropWhile_eq_self_iff, List.rdropWhile_eq_self_iff]
  rcases places with _ | ⟨place, places⟩
  · simp
  · simp [List.getLast?_eq_some_getLast (List.cons_ne_nil place places)]

theorem trimPlaces_sublist (places : List Place) : (trimPlaces places).Sublist places :=
  (List.rdropWhile_prefix _ _).sublist.trans (List.dropWhile_suffix _).sublist

/-- Cutting leaves the one trimmed part that has nothing but wildcards around it. -/
theorem trimPlaces_eq_iff {places middle : List Place} : trimPlaces places = middle
    ↔ IsTrimmed ⟨middle⟩ ∧ ∃ before after, places = before ++ middle ++ after
      ∧ ∀ place ∈ before ++ after, place.significant = false := by
  change (places.dropWhile _).rdropWhile _ = middle ↔ _
  rw [rdropWhile_dropWhile_eq_iff, isTrimmed_iff]
  simp only [Bool.not_eq_true']

theorem trimPlaces_eq_nil_iff {places : List Place} :
    trimPlaces places = [] ↔ ∀ place ∈ places, place.significant = false := by
  rw [trimPlaces_eq_iff]
  constructor
  · rintro ⟨-, before, after, rfl, hwild⟩
    simpa using hwild
  · exact fun hwild => ⟨by simp [IsTrimmed], places, [], by simp, by simpa using hwild⟩

/-- Only a signature without places is cut to nothing. -/
theorem trimmed_eq_ok_iff {s cut : Signature} : s.trimmed = .ok cut
    ↔ trimPlaces s.places = cut.places ∧ (cut.places = [] → s.places = []) := by
  obtain ⟨places⟩ := s
  obtain ⟨cut⟩ := cut
  have hnil := @trimPlaces_eq_nil_iff places
  simp only [trimmed]
  split_ifs with hplaces hany
  · subst hplaces
    simp [trimPlaces]
  · have hne : trimPlaces places ≠ [] := by
      simpa [hnil] using hany
    simp only [Except.ok.injEq, mk.injEq]
    exact ⟨fun h => ⟨h, fun hcut => absurd (h.trans hcut) hne⟩, And.left⟩
  · have hcut : trimPlaces places = [] := hnil.2 (by simpa using hany)
    simp only [false_iff, hcut]
    rintro ⟨rfl, himp⟩
    exact hplaces (himp rfl)

theorem trimmed_eq_error_iff {s : Signature} {fault : SignatureFault} :
    s.trimmed = .error fault ↔ s.places ≠ [] ∧ (∀ place ∈ s.places, place.significant = false)
      ∧ fault = .nothingSignificant := by
  rw [trimmed]
  split_ifs with hnil hany
  · simp [hnil]
  · obtain ⟨place, hplace, hsignificant⟩ := List.any_eq_true.1 hany
    simp only [false_iff]
    rintro ⟨-, hwild, -⟩
    rw [hwild place hplace] at hsignificant
    cases hsignificant
  · have hwild : ∀ place ∈ s.places, place.significant = false := by simpa using hany
    simp only [Except.error.injEq]
    exact ⟨fun h => ⟨hnil, hwild, h.symm⟩, fun h => h.2.2.symm⟩

/-- A trimmed signature stays as it is. -/
theorem IsTrimmed.trimmed_eq {s : Signature} (h : s.IsTrimmed) : s.trimmed = .ok s :=
  trimmed_eq_ok_iff.2 ⟨trimPlaces_eq_iff.2 ⟨h, [], [], by simp, by simp⟩, id⟩

theorem isTrimmed_of_trimmed {s cut : Signature} (h : s.trimmed = .ok cut) : cut.IsTrimmed :=
  (trimPlaces_eq_iff.1 (trimmed_eq_ok_iff.1 h).1).1

theorem sublist_of_trimmed {s cut : Signature} (h : s.trimmed = .ok cut) :
    cut.places.Sublist s.places := by
  rw [← (trimmed_eq_ok_iff.1 h).1]
  exact trimPlaces_sublist s.places

theorem isTrimmed_exact (bytes : List UInt8) : (exact bytes).IsTrimmed := by
  simp +contextual [IsTrimmed, exact, Place.exactly]

theorem isTrimmed_of_ofMasked {bytes : List UInt8} {mask : Option (List Bool)} {s : Signature}
    (h : ofMasked bytes mask true = .ok s) : s.IsTrimmed := by
  unfold ofMasked at h
  cases mask with
  | none =>
    cases h
    exact isTrimmed_exact bytes
  | some mask =>
    dsimp only at h
    rw [if_pos rfl] at h
    split_ifs at h
    exact isTrimmed_of_trimmed h

/-! ## Placeholders -/

theorem trimPlaces_map_blanked (places : List Place) :
    trimPlaces (places.map Place.blanked) = (trimPlaces places).map Place.blanked := by
  simp [trimPlaces, List.dropWhile_map, ← List.map_reverse, Function.comp_def]

theorem trimmed_blanked (s : Signature) : s.blanked.trimmed = s.trimmed.map blanked := by
  have hany : s.blanked.places.any Place.significant = s.places.any Place.significant := by
    simp [blanked, List.any_map, Function.comp_def]
  have hnil : s.blanked.places = [] ↔ s.places = [] := List.map_eq_nil_iff
  have htrim : trimPlaces s.blanked.places = (trimPlaces s.places).map Place.blanked :=
    trimPlaces_map_blanked s.places
  simp only [trimmed, hany, hnil, htrim]
  split_ifs <;> rfl

theorem fits_map_blanked : ∀ (places : List Place) (bytes : List UInt8),
    Matching.fits (places.map Place.blanked) bytes = Matching.fits places bytes
  | [], _ => rfl
  | _ :: _, [] => rfl
  | place :: places, byte :: bytes => by
    simp [Matching.fits, Place.admits_blanked, fits_map_blanked places bytes]

/-- Placeholders make no difference to a matcher. -/
theorem apply_blanked (algorithm : Algorithm) (s : Signature) (haystack : List UInt8) :
    algorithm.apply s.blanked.places haystack = algorithm.apply s.places haystack := by
  have hfits : Matching.fits (s.places.map Place.blanked) = Matching.fits s.places :=
    funext (fits_map_blanked s.places)
  rw [Algorithm.apply_eq_naive, Algorithm.apply_eq_naive, blanked, Matching.naive, Matching.naive,
    hfits]
  simp [Matching.windowEnds]

end Signature

end Landmark
