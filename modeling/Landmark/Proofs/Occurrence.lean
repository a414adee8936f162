import Mathlib.Data.Nat.Find
import Mathlib.Tactic.Common
import Landmark.Signature.Matching

/-!
# Where a signature occurs

A signature occurs at an offset if its window lies in the haystack and each significant place has
its byte there (`OccursAt`). Both matchers that look at every window, by place or by literal run,
stop at the first window that `fits` accepts, and that is the first occurrence
(`naive_eq_some_iff`, `splitNaive_eq_naive`).

For the runs, a significant position lies in a run (`exists_run_of_significant`) and a run covers
significant positions only (`mem_splitFrom`), so the runs of a window agree with those of the
signature exactly when its significant places do.
-/

namespace Landmark

/-- The places match the haystack at an offset: the whole window lies in the haystack, and the
byte under each significant place is that of the place. -/
def OccursAt (places : List Place) (haystack : List UInt8) (offset : Nat) : Prop :=
  offset + places.length ≤ haystack.length ∧
    ∀ i, (h : i < places.length) → places[i].significant →
      haystack[offset + i]? = some places[i].byte

theorem Place.admits_iff {place : Place} {byte : UInt8} :
    place.admits byte = true ↔ (place.significant → byte = place.byte) := by
  cases hs : place.significant <;> simp [admits, hs, eq_comm (a := byte)]

namespace Matching

/-- A front of the haystack fits if each significant place has its byte there. -/
theorem fits_iff : ∀ (places : List Place) (bytes : List UInt8),
    fits places bytes = true ↔ places.length ≤ bytes.length ∧
      ∀ i, (h : i < places.length) → places[i].significant → bytes[i]? = some places[i].byte
  | [], bytes => by simp [fits]
  | place :: places, [] => by simp [fits]
  | place :: places, byte :: bytes => by
    simp only [fits, Bool.and_eq_true, fits_iff places bytes, List.length_cons,
      Nat.add_le_add_iff_right, Place.admits_iff]
    constructor
    · rintro ⟨hplace, hlength, hrest⟩
      refine ⟨hlength, fun i hi hs => ?_⟩
      cases i with
      | zero => exact congrArg some (hplace hs)
      | succ i => exact hrest i (Nat.lt_of_succ_lt_succ hi) hs
    · rintro ⟨hlength, hall⟩
      refine ⟨fun hs => ?_, hlength, fun i hi hs => hall (i + 1) (Nat.succ_lt_succ hi) hs⟩
      exact Option.some.inj (hall 0 (Nat.succ_pos _) hs)

theorem occursAt_iff_fits {places : List Place} {haystack : List UInt8} {offset : Nat}
    (h : offset + places.length ≤ haystack.length) :
    OccursAt places haystack offset ↔ fits places (haystack.drop offset) = true := by
  simp only [OccursAt, fits_iff, List.length_drop, List.getElem?_drop]
  constructor
  · exact fun hoccurs => ⟨by omega, hoccurs.2⟩
  · exact fun hfits => ⟨h, hfits.2⟩

/-- The offset of the first window is the least one whose bytes pass the test. -/
theorem firstWindow_eq_some_iff (test : List UInt8 → Bool) :
    ∀ (ends bytes : List UInt8) (offset o : Nat),
      firstWindow test offset bytes ends = some o ↔
        ∃ k < ends.length, o = offset + k ∧ test (bytes.drop k) = true ∧
          ∀ j < k, test (bytes.drop j) = false
  | [], bytes, offset, o => by simp [firstWindow]
  | last :: ends, bytes, offset, o => by
    have ih := firstWindow_eq_some_iff test ends bytes.tail (offset + 1) o
    simp only [firstWindow]
    by_cases hfirst : test bytes = true
    · simp only [hfirst, if_true, Option.some.injEq, List.length_cons]
      constructor
      · rintro rfl
        exact ⟨0, by omega, by omega, by simpa using hfirst, by simp⟩
      · rintro ⟨k, -, rfl, -, hbefore⟩
        cases k with
        | zero => rfl
        | succ k => simpa [hfirst] using hbefore 0 (Nat.succ_pos k)
    · rw [if_neg hfirst, ih]
      constructor
      · rintro ⟨k, hk, rfl, htest, hbefore⟩
        refine ⟨k + 1, by simpa using hk, by omega, by simpa using htest, fun j hj => ?_⟩
        cases j with
        | zero => simpa using hfirst
        | succ j => simpa using hbefore j (by omega)
      · rintro ⟨k, hk, rfl, htest, hbefore⟩
        cases k with
        | zero => exact absurd (by simpa using htest) hfirst
        | succ k =>
          refine ⟨k, by simpa using hk, by omega, by simpa using htest, fun j hj => ?_⟩
          simpa using hbefore (j + 1) (by omega)

/-- Windows that fail the test may be passed over. -/
theorem firstWindow_drop (test : List UInt8 → Bool) :
    ∀ (s : Nat) (ends bytes : List UInt8) (offset : Nat),
      (∀ j < s, test (bytes.drop j) = false) →
        firstWindow test offset bytes ends
          = firstWindow test (offset + s) (bytes.drop s) (ends.drop s)
  | 0, ends, bytes, offset, _ => by simp
  | s + 1, [], bytes, offset, _ => by simp [firstWindow]
  | s + 1, last :: ends, bytes, offset, h => by
    have hfirst : test bytes = false := by simpa using h 0 (Nat.succ_pos s)
    have hrest := firstWindow_drop test s ends bytes.tail (offset + 1) fun j hj => by
      simpa using h (j + 1) (by omega)
    simp only [firstWindow, hfirst, Bool.false_eq_true, if_false, hrest, List.drop_tail,
      List.drop_succ_cons]
    rw [Nat.add_right_comm, Nat.add_assoc]

theorem firstWindow_congr {test test' : List UInt8 → Bool} :
    ∀ (ends bytes : List UInt8) (offset : Nat),
      (∀ k < ends.length, test (bytes.drop k) = test' (bytes.drop k)) →
        firstWindow test offset bytes ends = firstWindow test' offset bytes ends
  | [], _, _, _ => rfl
  | last :: ends, bytes, offset, h => by
    have hfirst : test bytes = test' bytes := by simpa using h 0 (by simp)
    have hrest := firstWindow_congr ends bytes.tail (offset + 1) fun k hk => by
      simpa using h (k + 1) (by simpa using hk)
    simp only [firstWindow, hfirst, hrest]

theorem lt_length_windowEnds {places : List Place} (hp : places ≠ []) {haystack : List UInt8}
    {k : Nat} :
    k < (windowEnds places haystack).length ↔ k + places.length ≤ haystack.length := by
  have := List.length_pos_iff.2 hp
  simp only [windowEnds, List.length_drop]
  omega

/-- Comparing every window finds the first occurrence, and nothing for no places. -/
theorem naive_eq_some_iff {places : List Place} {haystack : List UInt8} {o : Nat} :
    naive places haystack = some o ↔
      places ≠ [] ∧ OccursAt places haystack o ∧ ∀ j < o, ¬ OccursAt places haystack j := by
  unfold naive
  split_ifs with hp
  · simp [hp]
  · rw [firstWindow_eq_some_iff]
    simp only [lt_length_windowEnds hp, Nat.zero_add]
    constructor
    · rintro ⟨k, hk, rfl, hfits, hbefore⟩
      refine ⟨hp, (occursAt_iff_fits hk).2 hfits, fun j hj hoccurs => ?_⟩
      have := (occursAt_iff_fits hoccurs.1).1 hoccurs
      rw [hbefore j hj] at this
      exact Bool.noConfusion this
    · rintro ⟨-, hoccurs, hbefore⟩
      refine ⟨o, hoccurs.1, rfl, (occursAt_iff_fits hoccurs.1).1 hoccurs, fun j hj => ?_⟩
      have hj' : j + places.length ≤ haystack.length := by
        have := hoccurs.1
        omega
      simpa using (occursAt_iff_fits hj').not.1 (hbefore j hj)

theorem naive_eq_none_iff {places : List Place} {haystack : List UInt8} :
    naive places haystack = none ↔ places = [] ∨ ∀ o, ¬ OccursAt places haystack o := by
  constructor
  · intro hnone
    by_contra hsome
    push Not at hsome
    obtain ⟨hp, hex⟩ := hsome
    classical
    have hfound := naive_eq_some_iff.2 ⟨hp, Nat.find_spec hex, fun j hj => Nat.find_min hex hj⟩
    rw [hnone] at hfound
    cases hfound
  · intro hno
    rcases hfound : naive places haystack with _ | o
    · rfl
    · obtain ⟨hp, hoccurs, -⟩ := naive_eq_some_iff.1 hfound
      rcases hno with h | h
      · exact absurd h hp
      · exact absurd hoccurs (h o)

end Matching

namespace LiteralRun

theorem getElem?_slice {α : Type} (run : LiteralRun) (xs : List α) (i : Nat) :
    (run.slice xs)[i]? = if i < run.length then xs[run.start + i]? else none := by
  simp only [slice, List.getElem?_take, List.getElem?_drop]

theorem slice_eq_iff {α : Type} {run : LiteralRun} {xs ys : List α} :
    run.slice xs = run.slice ys ↔ ∀ i < run.length, xs[run.start + i]? = ys[run.start + i]? := by
  constructor
  · intro h i hi
    have := congrArg (·[i]?) h
    simpa only [getElem?_slice, if_pos hi] using this
  · intro h
    refine List.ext_getElem? fun i => ?_
    simp only [getElem?_slice]
    split_ifs with hi
    · exact h i hi
    · rfl

/-- The front of a mask up to its first wildcard is significant, and no more of it. -/
theorem getElem?_takeWhile_id (mask : List Bool) :
    (∀ i < (mask.takeWhile id).length, mask[i]? = some true)
      ∧ mask[(mask.takeWhile id).length]? ≠ some true := by
  induction mask with
  | nil => simp
  | cons significant mask ih =>
    cases significant with
    | false => simp
    | true =>
      simp only [List.takeWhile_cons, id_eq, if_true, List.length_cons,
        List.getElem?_cons_succ]
      refine ⟨fun i hi => ?_, ih.2⟩
      cases i with
      | zero => rfl
      | succ i => exact ih.1 i (Nat.lt_of_succ_lt_succ hi)

/-- A run lies in its mask and covers significant positions only. -/
theorem mem_splitFrom (start : Nat) (mask : List Bool) :
    ∀ run ∈ splitFrom start mask, start ≤ run.start ∧ 0 < run.length
      ∧ run.start + run.length ≤ start + mask.length
      ∧ ∀ i, run.start ≤ start + i → start + i < run.start + run.length →
          mask[i]? = some true := by
  induction start, mask using splitFrom.induct with
  | case1 start => simp [splitFrom]
  | case2 start mask ih =>
    intro run hrun
    rw [splitFrom] at hrun
    obtain ⟨hstart, hpos, hend, hall⟩ := ih run hrun
    refine ⟨by omega, hpos, by simp only [List.length_cons]; omega, fun i hi hi' => ?_⟩
    cases i with
    | zero => omega
    | succ i => exact hall i (by omega) (by omega)
  | case3 start mask length ih =>
    have hle : (mask.takeWhile id).length ≤ mask.length :=
      (List.takeWhile_prefix id).length_le
    have hlength : length = (mask.takeWhile id).length + 1 := rfl
    intro run hrun
    rw [splitFrom] at hrun
    rcases List.mem_cons.1 hrun with rfl | hrest
    · refine ⟨le_rfl, Nat.succ_pos _, by simp only [List.length_cons]; omega, fun i _ hi => ?_⟩
      cases i with
      | zero => rfl
      | succ i => exact (getElem?_takeWhile_id mask).1 i (by dsimp only at hi; omega)
    · obtain ⟨hstart, hpos, hend, hall⟩ := ih run hrest
      rw [List.length_drop] at hend
      refine ⟨by omega, hpos, by simp only [List.length_cons]; omega, fun i hi hi' => ?_⟩
      obtain ⟨j, rfl⟩ : ∃ j, i = length + j + 1 := ⟨i - length - 1, by omega⟩
      simpa only [List.getElem?_drop, List.getElem?_cons_succ] using hall j (by omega) (by omega)

/-- Every significant position of a mask lies in a run. -/
theorem exists_run_of_significant (start : Nat) (mask : List Bool) :
    ∀ i, mask[i]? = some true →
      ∃ run ∈ splitFrom start mask, run.start ≤ start + i ∧ start + i < run.start + run.length := by
  induction start, mask using splitFrom.induct with
  | case1 start => simp
  | case2 start mask ih =>
    intro i hi
    rw [splitFrom]
    cases i with
    | zero => simp at hi
    | succ i =>
      obtain ⟨run, hrun, hle, hlt⟩ := ih i hi
      exact ⟨run, hrun, by omega, by omega⟩
  | case3 start mask length ih =>
    have hlength : length = (mask.takeWhile id).length + 1 := rfl
    intro i hi
    rw [splitFrom]
    by_cases hfirst : i < length
    · exact ⟨_, List.mem_cons_self, by dsimp only; omega, by dsimp only; omega⟩
    · -- The position behind the run is no significant one, so `i` is in the rest.
      have hne : i ≠ length := by
        rintro rfl
        exact (getElem?_takeWhile_id mask).2 hi
      obtain ⟨j, rfl⟩ : ∃ j, i = length + j + 1 := ⟨i - length - 1, by omega⟩
      obtain ⟨run, hrun, hle, hlt⟩ := ih j
        (by simpa only [List.getElem?_drop, List.getElem?_cons_succ] using hi)
      exact ⟨run, List.mem_cons_of_mem _ hrun, by omega, by omega⟩

theorem mem_split {mask : List Bool} {run : LiteralRun} (h : run ∈ split mask) :
    run.start + run.length ≤ mask.length
      ∧ ∀ i, run.start ≤ i → i < run.start + run.length → mask[i]? = some true := by
  obtain ⟨-, -, hend, hall⟩ := mem_splitFrom 0 mask run h
  simp only [Nat.zero_add] at hend hall
  exact ⟨hend, hall⟩

end LiteralRun

namespace Matching

theorem significant_iff_mask {places : List Place} {i : Nat} (h : i < places.length) :
    places[i].significant = true ↔ (places.map Place.significant)[i]? = some true := by
  simp [List.getElem?_map, List.getElem?_eq_getElem h]

/-- The runs of a window agree with those of the signature exactly when its places fit. -/
theorem runsFit_eq_fits {places : List Place} {bytes : List UInt8}
    (hlength : places.length ≤ bytes.length) :
    runsFit (LiteralRun.split (places.map Place.significant)) (places.map Place.byte) bytes
      = fits places bytes := by
  rw [Bool.eq_iff_iff, fits_iff]
  simp only [runsFit, List.all_eq_true, beq_iff_eq, LiteralRun.slice_eq_iff]
  constructor
  · refine fun hruns => ⟨hlength, fun i hi hs => ?_⟩
    obtain ⟨run, hrun, hle, hlt⟩ :=
      LiteralRun.exists_run_of_significant 0 _ i ((significant_iff_mask hi).1 hs)
    rw [Nat.zero_add] at hle hlt
    have hbyte := hruns run hrun (i - run.start) (by omega)
    rw [Nat.add_sub_cancel' hle] at hbyte
    simpa [List.getElem?_eq_getElem hi] using hbyte
  · rintro ⟨-, hfits⟩ run hrun i hi
    obtain ⟨hend, hall⟩ := LiteralRun.mem_split hrun
    rw [List.length_map] at hend
    have hlt : run.start + i < places.length := by omega
    have hs := hall (run.start + i) (by omega) (by omega)
    rw [hfits _ hlt ((significant_iff_mask hlt).2 hs)]
    simp [List.getElem?_eq_getElem hlt]

/-- Comparing literal runs finds the same window as comparing every place. -/
theorem splitNaive_eq_naive (places : List Place) (haystack : List UInt8) :
    splitNaive places haystack = naive places haystack := by
  unfold splitNaive naive
  split_ifs with hp
  · rfl
  · refine firstWindow_congr _ _ _ fun k hk => runsFit_eq_fits ?_
    rw [lt_length_windowEnds hp] at hk
    simp only [List.length_drop]
    omega

end Matching

end Landmark
