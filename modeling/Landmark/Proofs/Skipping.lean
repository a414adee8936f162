import Mathlib.Data.List.TakeWhile
import Landmark.Proofs.Occurrence

/-!
# Moving a window on by a skip table

Read backwards from the last place, the places of a signature bound the distance of a byte: the
window may not pass a wildcard or a place that has the byte (`shift_build`). So none of the windows
that are passed over fits: in each of them a significant place with another byte lies over the byte
that was looked at (`fits_drop_eq_false`), and the search that skips finds what the search through
all windows finds (`horspool_eq_naive`).
-/

namespace Landmark

namespace SkipTable

theorem shift_constant (distance : Nat) (h : 0 < distance) (byte : UInt8) :
    (constant distance h).shift byte = distance := by
  simp [shift, constant]

theorem shift_tighten (table : SkipTable) (byte : UInt8) (distance : Nat) (h : 0 < distance)
    (c : UInt8) :
    (table.tighten byte distance h).shift c
      = if byte = c then min distance (table.shift c) else table.shift c := by
  simp only [shift, tighten, Fin.getElem_fin, Vector.getElem_set]
  by_cases hc : byte = c
  · subst hc
    simp only [if_true]
    exact if_pos rfl
  · have hne : byte.toNat ≠ c.toNat := fun heq => hc (UInt8.toNat_inj.1 heq)
    simp only [if_neg hc]
    exact if_neg hne

/-- Tightening takes a byte's distance down to that of the nearest place which has the byte. -/
theorem shift_tightenBack (c : UInt8) :
    ∀ (before : List Place) (distance : Nat) (h : 0 < distance) (table : SkipTable),
      table.shift c ≤ distance + before.length →
        (tightenBack distance h table before).shift c
          = min (table.shift c)
            (distance + (before.takeWhile fun place => place.byte != c).length)
  | [], distance, h, table, hle => by
    simp only [tightenBack, List.takeWhile_nil]
    exact (Nat.min_eq_left hle).symm
  | place :: before, distance, h, table, hle => by
    have ih := shift_tightenBack c before (distance + 1) (Nat.succ_pos distance)
      (table.tighten place.byte distance h)
    rw [shift_tighten, List.length_cons] at *
    rw [tightenBack]
    by_cases hc : place.byte = c
    · simp only [if_pos hc] at ih
      rw [ih (by omega)]
      simp only [List.takeWhile_cons, hc, bne_self_eq_false, Bool.false_eq_true, if_false,
        List.length_nil]
      omega
    · simp only [if_neg hc] at ih
      rw [ih (by omega)]
      simp only [List.takeWhile_cons, bne_iff_ne, ne_eq, hc, not_false_eq_true, if_true,
        List.length_cons]
      omega

theorem length_takeWhile_and {α : Type} (p q : α → Bool) :
    ∀ xs : List α, (xs.takeWhile fun x => p x && q x).length
      = min (xs.takeWhile p).length (xs.takeWhile q).length
  | [] => rfl
  | x :: xs => by
    have ih := length_takeWhile_and p q xs
    cases hp : p x <;> cases hq : q x <;> simp [hp, hq]
    simpa [hp, hq] using ih

theorem reach_pos (before : List Place) : 0 < reach before :=
  Nat.succ_pos _

theorem build_eq {places before : List Place} {final : Place}
    (h : places.reverse = final :: before) :
    build places
      = tightenBack 1 Nat.one_pos (constant (reach before) (reach_pos before)) before := by
  simp only [build, h]

/-- The distance of a byte is that from the last place back to the nearest place before it which
is a wildcard or has the byte, or the length of the signature if there is none. -/
theorem shift_build {places before : List Place} {final : Place}
    (h : places.reverse = final :: before) (c : UInt8) :
    (build places).shift c
      = (before.takeWhile fun place => place.significant && place.byte != c).length + 1 := by
  have hreach : reach before ≤ 1 + before.length := by
    have := (List.takeWhile_prefix Place.significant (l := before)).length_le
    simp only [reach]
    omega
  rw [build_eq h, shift_tightenBack c before 1 Nat.one_pos _ (by rwa [shift_constant]),
    shift_constant, length_takeWhile_and, reach]
  omega

end SkipTable

namespace Matching

theorem drop_windowEnds (places : List Place) (bytes : List UInt8) (s : Nat) :
    (windowEnds places bytes).drop s = windowEnds places (bytes.drop s) := by
  rw [windowEnds, windowEnds, List.drop_drop, List.drop_drop, Nat.add_comm]

/-- A place that is passed over is significant and has another byte. -/
theorem passed_over {before : List Place} {c : UInt8} {j : Nat}
    (h : j < (before.takeWhile fun place => place.significant && place.byte != c).length) :
    ∃ place, before[j]? = some place ∧ place.significant = true ∧ place.byte ≠ c := by
  set front := before.takeWhile fun place => place.significant && place.byte != c with hfront
  have hle : front <+: before := List.takeWhile_prefix _
  refine ⟨front[j], ?_, ?_⟩
  · rw [hle.getElem h]
    exact List.getElem?_eq_getElem _
  · have hmem : front[j] ∈ front := List.getElem_mem h
    simpa using List.mem_takeWhile_imp hmem

theorem length_of_reverse {places before : List Place} {final : Place}
    (hrev : places.reverse = final :: before) : places.length = before.length + 1 := by
  rw [← List.length_reverse, hrev, List.length_cons]

/-- The places before the last one, nearest first, are found by their distance from it. -/
theorem getElem?_of_reverse {places before : List Place} {final : Place}
    (hrev : places.reverse = final :: before) {j : Nat} (hj : j < before.length) :
    places[places.length - 1 - (j + 1)]? = before[j]? := by
  have hlength := length_of_reverse hrev
  have : places.reverse[j + 1]? = before[j]? := by rw [hrev, List.getElem?_cons_succ]
  rwa [List.getElem?_reverse (by omega)] at this

/-- Where a window fits, its last byte fits the last place. -/
theorem admits_last_of_fits {places before : List Place} {final : Place}
    (hrev : places.reverse = final :: before) {bytes : List UInt8} {last : UInt8}
    (hlast : bytes[places.length - 1]? = some last) (hfits : fits places bytes = true) :
    final.admits last = true := by
  have hlength := length_of_reverse hrev
  have hget : places[places.length - 1]? = some final := by
    have : places.reverse[0]? = some final := by rw [hrev]; rfl
    rwa [List.getElem?_reverse (by omega)] at this
  obtain ⟨hlt, hget⟩ := List.getElem?_eq_some_iff.1 hget
  rw [Place.admits_iff, ← hget]
  intro hs
  have := ((fits_iff _ _).1 hfits).2 _ hlt hs
  rw [hlast] at this
  exact Option.some.inj this

/-- After a window has failed, no window that begins before the distance of its last byte fits. -/
theorem fits_drop_eq_false {places before : List Place} {final : Place}
    (hrev : places.reverse = final :: before) {bytes : List UInt8} {last : UInt8}
    (hlast : bytes[places.length - 1]? = some last)
    (hfail : fits places bytes = false) :
    ∀ j < (SkipTable.build places).shift last, fits places (bytes.drop j) = false := by
  intro j hj
  cases j with
  | zero => simpa using hfail
  | succ j =>
    rw [SkipTable.shift_build hrev] at hj
    obtain ⟨place, hplace, hs, hbyte⟩ := passed_over (Nat.lt_of_succ_lt_succ hj)
    have hlength := length_of_reverse hrev
    have hj' : j < before.length := by
      obtain ⟨hlt, -⟩ := List.getElem?_eq_some_iff.1 hplace
      exact hlt
    -- The place lies over the byte that was looked at, and has another one.
    have hat : places[places.length - 1 - (j + 1)]? = some place := by
      rw [getElem?_of_reverse hrev hj', hplace]
    obtain ⟨hlt, hget⟩ := List.getElem?_eq_some_iff.1 hat
    rw [Bool.eq_false_iff]
    intro hfits
    have hover := ((fits_iff _ _).1 hfits).2 _ hlt (by rw [hget]; exact hs)
    rw [List.getElem?_drop, show j + 1 + (places.length - 1 - (j + 1)) = places.length - 1 by omega,
      hlast, hget] at hover
    exact hbyte (Option.some.inj hover).symm

/-- Sliding by the table finds the first window, as going through all windows does. -/
theorem slide_eq_firstWindow {places before : List Place} {final : Place}
    (hrev : places.reverse = final :: before) :
    ∀ (n offset : Nat) (bytes : List UInt8), (windowEnds places bytes).length ≤ n →
      slide (SkipTable.build places) places final offset bytes (windowEnds places bytes)
        = firstWindow (fits places) offset bytes (windowEnds places bytes) := by
  intro n
  induction n with
  | zero =>
    intro offset bytes hn
    rw [List.eq_nil_of_length_eq_zero (Nat.le_zero.1 hn), slide, firstWindow]
  | succ n ih =>
    intro offset bytes hn
    rcases hends : windowEnds places bytes with _ | ⟨last, ends⟩
    · rw [slide, firstWindow]
    · have hlast : bytes[places.length - 1]? = some last := by
        have := congrArg (·[0]?) hends
        simpa [windowEnds] using this
      have hfinal := admits_last_of_fits hrev hlast
      rw [slide]
      by_cases hfits : fits places bytes = true
      · rw [if_pos (by rw [hfits, hfinal hfits]; rfl), firstWindow, if_pos hfits]
      · rw [Bool.not_eq_true] at hfits
        rw [if_neg (by simp [hfits])]
        have hskip := fits_drop_eq_false hrev hlast hfits
        set shift := (SkipTable.build places).shift last with hshift
        have hdrop : (last :: ends).drop shift = windowEnds places (bytes.drop shift) := by
          rw [← hends, drop_windowEnds]
        have hpos : 0 < shift := SkipTable.shift_pos _ last
        rw [firstWindow_drop (fits places) shift (last :: ends) bytes offset hskip]
        simp only [hdrop]
        refine ih (offset + shift) (bytes.drop shift) ?_
        rw [← hdrop, List.length_drop, ← hends]
        omega

/-- Skipping finds the same window as comparing every one. -/
theorem horspool_eq_naive (places : List Place) (haystack : List UInt8) :
    horspool places haystack = naive places haystack := by
  unfold horspool naive
  rcases hrev : places.reverse with _ | ⟨final, before⟩
  · simp [List.reverse_eq_nil_iff.1 hrev]
  · have hlast : places.getLast? = some final := by
      rw [List.getLast?_eq_head?_reverse, hrev, List.head?_cons]
    have hp : places ≠ [] := by
      rintro rfl
      simp at hrev
    rw [hlast, if_neg hp]
    exact slide_eq_firstWindow hrev _ 0 haystack le_rfl

end Matching

/-- All matchers give the same answer. -/
theorem Algorithm.apply_eq_naive (algorithm : Algorithm) (places : List Place)
    (haystack : List UInt8) :
    algorithm.apply places haystack = Matching.naive places haystack := by
  cases algorithm with
  | naive => rfl
  | splitNaive => exact Matching.splitNaive_eq_naive places haystack
  | boyerMooreHorspool => exact Matching.horspool_eq_naive places haystack

end Landmark
