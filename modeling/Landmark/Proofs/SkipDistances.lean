import Mathlib.Order.Bounds.Basic
import Landmark.Proofs.Skipping

/-!
# The distances in a skip table

A window may move on until a place that admits the byte looked at comes to lie over it, or past that
byte altogether (`Aligns`), and the distance that a skip table holds for the byte is the least of
these (`isLeast_shift_build`). What a place requires is all that counts for it, so the table does
not see placeholders: other placeholders make the same table (`build_congr`), and so does leaving
them out of the tightening (`buildSignificant_eq`), because the distance to the nearest wildcard
bounds the table before any place takes part.
-/

namespace Landmark

/-- The byte that a place requires, a wildcard requiring none. -/
def Place.required (place : Place) : Option UInt8 :=
  if place.significant then some place.byte else none

namespace SkipTable

/-- Whether a window that has moved on by `distance` can match with regard to the byte `c`, which
was under its last place: the place that is over `c` now is a wildcard or has that byte, or no place
is over it any more. -/
def Aligns (places : List Place) (c : UInt8) (distance : Nat) : Prop :=
  1 ≤ distance ∧ (distance = places.length ∨ distance < places.length
    ∧ ∃ place, places[places.length - 1 - distance]? = some place
      ∧ (place.required = none ∨ place.required = some c))

/-- As `tightenBack`, the placeholders left out. -/
def tightenSignificant (distance : Nat) (h : 0 < distance) (table : SkipTable) :
    List Place → SkipTable
  | [] => table
  | place :: places =>
    tightenSignificant (distance + 1) (Nat.succ_pos distance)
      (if place.significant then table.tighten place.byte distance h else table) places

/-- As `build`, the placeholders left out of the tightening. -/
def buildSignificant (places : List Place) : SkipTable :=
  match places.reverse with
  | [] => constant 1 Nat.one_pos
  | _ :: before =>
    tightenSignificant 1 Nat.one_pos (constant (reach before) (reach_pos before)) before

/-- Tables with the same distances are the same. -/
@[ext]
theorem ext {table table' : SkipTable} (h : ∀ c, table.shift c = table'.shift c) :
    table = table' := by
  obtain ⟨shifts, hpos⟩ := table
  obtain ⟨shifts', hpos'⟩ := table'
  have heq : shifts = shifts' := by
    refine Vector.ext fun i hi => ?_
    have := h (UInt8.ofNat i)
    simpa [shift, Nat.mod_eq_of_lt hi] using this
  subst heq
  rfl

/-! ## The least distance -/

theorem required_or_iff {place : Place} {c : UInt8} :
    place.required = none ∨ place.required = some c
      ↔ (place.significant && place.byte != c) = false := by
  cases hs : place.significant <;> simp [Place.required, hs]

/-- Among the places before the last one, nearest first, a distance reaches the nearest that could
have the byte or none. -/
theorem aligns_succ_iff {places before : List Place} {final : Place}
    (h : places.reverse = final :: before) {c : UInt8} {j : Nat} :
    Aligns places c (j + 1) ↔ j = before.length
      ∨ ∃ place, before[j]? = some place ∧ (place.significant && place.byte != c) = false := by
  have hlength := Matching.length_of_reverse h
  simp only [Aligns, required_or_iff]
  constructor
  · rintro ⟨-, heq | ⟨hlt, hplace⟩⟩
    · exact .inl (by omega)
    · exact .inr (by rwa [Matching.getElem?_of_reverse h (by omega)] at hplace)
  · rintro (heq | ⟨place, hplace, hc⟩)
    · exact ⟨by omega, .inl (by omega)⟩
    · obtain ⟨hj, -⟩ := List.getElem?_eq_some_iff.1 hplace
      refine ⟨by omega, .inr ⟨by omega, place, ?_, hc⟩⟩
      rw [Matching.getElem?_of_reverse h hj, hplace]

/-- Where the front that passes a test ends, the test fails. -/
theorem takeWhile_length_spec {α : Type} {p : α → Bool} {xs : List α} :
    (xs.takeWhile p).length = xs.length
      ∨ ∃ x, xs[(xs.takeWhile p).length]? = some x ∧ p x = false := by
  have hlength : (xs.takeWhile p).length = xs.findIdx fun x => !p x := by
    rw [List.takeWhile_eq_take_findIdx_not, List.length_take,
      Nat.min_eq_left List.findIdx_le_length]
  rw [hlength]
  rcases Nat.lt_or_ge (xs.findIdx fun x => !p x) xs.length with hlt | hge
  · refine .inr ⟨_, List.getElem?_eq_getElem hlt, ?_⟩
    simpa using List.findIdx_getElem (w := hlt)
  · exact .inl (le_antisymm List.findIdx_le_length hge)

/-- The table holds the least distance at which the window can match again. -/
theorem isLeast_shift_build {places : List Place} (h : places ≠ []) (c : UInt8) :
    IsLeast {distance | Aligns places c distance} ((build places).shift c) := by
  obtain ⟨final, before, hrev⟩ := List.exists_cons_of_ne_nil (List.reverse_ne_nil_iff.2 h)
  rw [shift_build hrev]
  constructor
  · exact (aligns_succ_iff hrev).2 takeWhile_length_spec
  · intro distance hdistance
    obtain ⟨j, rfl⟩ := Nat.exists_eq_add_one_of_ne_zero (Nat.one_le_iff_ne_zero.1 hdistance.1)
    by_contra hlt
    have hpassed : j < (before.takeWhile fun place =>
        place.significant && place.byte != c).length := by omega
    -- a place that is passed over is significant and has another byte
    obtain ⟨place, hplace, hs, hbyte⟩ := Matching.passed_over hpassed
    rcases (aligns_succ_iff hrev).1 hdistance with rfl | ⟨place', hplace', hc⟩
    · rw [List.getElem?_eq_none le_rfl] at hplace
      cases hplace
    · rw [hplace, Option.some.injEq] at hplace'
      simp [← hplace', hs, hbyte] at hc

/-! ## What the table does not see -/

theorem aligns_congr {places places' : List Place}
    (h : places'.map Place.required = places.map Place.required) (c : UInt8) (distance : Nat) :
    Aligns places' c distance ↔ Aligns places c distance := by
  have haligns (places : List Place) : Aligns places c distance ↔ 1 ≤ distance
      ∧ (distance = (places.map Place.required).length
        ∨ distance < (places.map Place.required).length
          ∧ ∃ required, (places.map Place.required)[(places.map Place.required).length - 1
            - distance]? = some required ∧ (required = none ∨ required = some c)) := by
    simp only [Aligns, List.length_map, List.getElem?_map, Option.map_eq_some_iff]
    grind
  rw [haligns, haligns, h]

/-- Signatures that differ in placeholders only have the same table. -/
theorem build_congr {places places' : List Place}
    (h : places'.map Place.required = places.map Place.required) :
    build places' = build places := by
  by_cases hp : places = []
  · subst hp
    rw [List.map_eq_nil_iff.1 h]
  · have hp' : places' ≠ [] := fun hnil => hp <| by
      rw [hnil] at h
      exact List.map_eq_nil_iff.1 h.symm
    ext c
    refine (isLeast_shift_build hp' c).unique ?_
    simpa only [aligns_congr h] using isLeast_shift_build hp c

/-- The last place has no part in the table. -/
theorem build_dropLast_append (places : List Place) (hp : places ≠ []) (final : Place) :
    build (places.dropLast ++ [final]) = build places := by
  obtain ⟨last, before, hrev⟩ := List.exists_cons_of_ne_nil (List.reverse_ne_nil_iff.2 hp)
  have hother : (places.dropLast ++ [final]).reverse = final :: before := by
    rw [List.reverse_append, ← List.tail_reverse, hrev]
    rfl
  rw [build_eq hrev, build_eq hother]

theorem tighten_eq_self {table : SkipTable} {byte : UInt8} {distance : Nat} {h : 0 < distance}
    (hle : table.shift byte ≤ distance) : table.tighten byte distance h = table := by
  ext c
  rw [shift_tighten]
  split_ifs with hc
  · rw [Nat.min_eq_right (hc ▸ hle)]
  · rfl

theorem shift_tighten_le (table : SkipTable) (byte : UInt8) (distance : Nat) (h : 0 < distance)
    (c : UInt8) : (table.tighten byte distance h).shift c ≤ table.shift c := by
  rw [shift_tighten]
  split_ifs
  · exact Nat.min_le_right _ _
  · exact le_rfl

/-- Placeholders tighten nothing once no distance reaches past the nearest wildcard. -/
theorem tightenSignificant_eq : ∀ (before : List Place) (distance : Nat) (h : 0 < distance)
    (table : SkipTable),
    (∀ c, table.shift c ≤ distance + (before.takeWhile Place.significant).length) →
      tightenSignificant distance h table before = tightenBack distance h table before
  | [], _, _, _, _ => rfl
  | place :: before, distance, h, table, hle => by
    have ih := tightenSignificant_eq before (distance + 1) (Nat.succ_pos distance)
      (table.tighten place.byte distance h)
    rw [tightenSignificant, tightenBack]
    cases hs : place.significant with
    | true =>
      rw [if_pos rfl]
      refine ih fun c => (shift_tighten_le _ _ _ _ c).trans ?_
      have := hle c
      rw [List.takeWhile_cons, if_pos hs, List.length_cons] at this
      omega
    | false =>
      -- the wildcard is as near as the table allows, so its placeholder changes nothing
      simp only [List.takeWhile_cons, hs, Bool.false_eq_true, if_false, List.length_nil,
        Nat.add_zero] at hle
      rw [tighten_eq_self (hle place.byte)] at ih ⊢
      rw [if_neg Bool.false_ne_true]
      exact ih fun c => (hle c).trans (by omega)

/-- A table from which the placeholders are left out is the same table. -/
theorem buildSignificant_eq (places : List Place) : buildSignificant places = build places := by
  rcases hrev : places.reverse with _ | ⟨final, before⟩
  · simp only [buildSignificant, build, hrev]
  · rw [build_eq hrev, buildSignificant, hrev]
    refine tightenSignificant_eq before 1 Nat.one_pos _ fun c => ?_
    rw [shift_constant, reach]
    omega

/-- The table of a signature is exact: it holds for each byte the least distance at which the window
can match again, which is at least one place and at most the whole signature. It sees neither the
last place nor any placeholder, and letting placeholders take part in the tightening changes
nothing. -/
theorem build_exact {places : List Place} (h : places ≠ []) :
    (∀ c, IsLeast {distance | Aligns places c distance} ((build places).shift c))
      ∧ (∀ c, 1 ≤ (build places).shift c ∧ (build places).shift c ≤ places.length)
      ∧ (∀ final, build (places.dropLast ++ [final]) = build places)
      ∧ (∀ places', places'.map Place.required = places.map Place.required →
        build places' = build places)
      ∧ buildSignificant places = build places := by
  refine ⟨isLeast_shift_build h, fun c => ⟨shift_pos _ c, ?_⟩, build_dropLast_append places h,
    fun _ => build_congr, buildSignificant_eq places⟩
  exact (isLeast_shift_build h c).2 ⟨List.length_pos_iff.2 h, .inl rfl⟩

/-- With a wildcard in the second of four places no distance is above two, and the placeholder under
it does not matter. -/
theorem build_exact_four :
    (build [⟨0x10, true⟩, ⟨0x00, false⟩, ⟨0x20, true⟩, ⟨0x30, true⟩]).shift 0xFF = 2
      ∧ IsLeast {distance | Aligns [⟨0x10, true⟩, ⟨0x00, false⟩, ⟨0x20, true⟩, ⟨0x30, true⟩] 0xFF
        distance} 2
      ∧ build [⟨0x10, true⟩, ⟨0x77, false⟩, ⟨0x20, true⟩, ⟨0x30, true⟩]
        = build [⟨0x10, true⟩, ⟨0x00, false⟩, ⟨0x20, true⟩, ⟨0x30, true⟩] := by
  have hshift : (build [⟨0x10, true⟩, ⟨0x00, false⟩, ⟨0x20, true⟩, ⟨0x30, true⟩]).shift 0xFF
      = 2 := by decide +kernel
  obtain ⟨hleast, -, -, hplaceholder, -⟩ := build_exact (List.cons_ne_nil
    (⟨0x10, true⟩ : Place) [⟨0x00, false⟩, ⟨0x20, true⟩, ⟨0x30, true⟩])
  exact ⟨hshift, hshift ▸ hleast 0xFF, hplaceholder _ (by decide)⟩

end SkipTable

end Landmark
