import Landmark.Proofs.Skipping

/-!
# Matchers by position

The matchers again, written with positions into the haystack and the signature. Here each byte,
place and stretch is asked for by its position, and a search that asks for one outside of its list
has no answer at all. None ever does: every matcher by position has an answer, the one its
counterpart without positions gives (`Indexed.answer?_eq`).
-/

namespace Landmark

namespace Indexed

variable {α : Type}

/-- So many items of a list from a position on, if the list has them. -/
def slice? (xs : List α) (start length : Nat) : Option (List α) :=
  if start + length ≤ xs.length then some ((xs.drop start).take length) else none

/-- Whether the place at a position matches the byte of a window there. -/
def placeFits? (places : List Place) (window : List UInt8) (i : Nat) : Option Bool := do
  let place ← places[i]?
  if place.significant then
    let byte ← window[i]?
    return place.byte == byte
  else return true

/-- Whether the places at the given positions match, up to the first that does not. -/
def placesFit? (places : List Place) (window : List UInt8) : List Nat → Option Bool
  | [] => some true
  | i :: is => do
    if ← placeFits? places window i then placesFit? places window is else return false

/-- The first of `count` positions from `start` on that passes a test. -/
def search? (test : Nat → Option Bool) : (count start : Nat) → Option (Option Nat)
  | 0, _ => some none
  | count + 1, start => do
    if ← test start then return some start else search? test count (start + 1)

/-- The number of windows in a haystack. -/
def windows (places : List Place) (haystack : List UInt8) : Nat :=
  haystack.length - places.length + 1

/-- Compares every window place by place, from the left. -/
def naive? (places : List Place) (haystack : List UInt8) : Option (Option Nat) :=
  if places = [] ∨ haystack.length < places.length then some none
  else
    search? (fun start => do
      let window ← slice? haystack start places.length
      placesFit? places window (List.range places.length)) (windows places haystack) 0

/-- The runs of a mask from a position on. -/
def runs? (mask : List Bool) (i : Nat) : Option (List LiteralRun) :=
  if i < mask.length then do
    if ← mask[i]? then
      let rest ← slice? mask i (mask.length - i)
      let length := (rest.takeWhile id).length
      let runs ← runs? mask (i + length + 1)
      return ⟨i, length⟩ :: runs
    else runs? mask (i + 1)
  else some []
termination_by mask.length - i

/-- Whether the runs of a window that begins at a position agree with those of the signature, up to
the first that does not. -/
def runsFit? (bytes haystack : List UInt8) (start : Nat) : List LiteralRun → Option Bool
  | [] => some true
  | run :: runs => do
    let found ← slice? haystack (start + run.start) run.length
    let wanted ← slice? bytes run.start run.length
    if found == wanted then runsFit? bytes haystack start runs else return false

/-- Compares the literal runs of every window. -/
def splitNaive? (places : List Place) (haystack : List UInt8) : Option (Option Nat) :=
  if places = [] ∨ haystack.length < places.length then some none
  else do
    let runs ← runs? (places.map Place.significant) 0
    search? (fun start => runsFit? (places.map Place.byte) haystack start runs)
      (windows places haystack) 0

/-- The skip table, from the places before the last one. -/
def table? (places : List Place) : Option SkipTable :=
  match places.length with
  | 0 => some (SkipTable.constant 1 Nat.one_pos)
  | last + 1 => do
    let before ← slice? places 0 last
    return SkipTable.tightenBack 1 Nat.one_pos
      (SkipTable.constant (SkipTable.reach before.reverse) (SkipTable.reach_pos _)) before.reverse

/-- Slides a window over a haystack. It is compared from its last place backwards, and after a
mismatch its last byte says how far it moves on. -/
def slide? (table : SkipTable) (places : List Place) (haystack : List UInt8) (start : Nat) :
    Option (Option Nat) :=
  if start + places.length ≤ haystack.length then do
    let window ← slice? haystack start places.length
    if ← placesFit? places window (List.range places.length).reverse then return some start
    else
      let last ← window[places.length - 1]?
      slide? table places haystack (start + table.shift last)
  else some none
termination_by haystack.length + 1 - start
decreasing_by
  have := table.shift_pos last
  omega

/-- Looks at windows from their ends and moves on by the skip table. -/
def horspool? (places : List Place) (haystack : List UInt8) : Option (Option Nat) :=
  if places = [] ∨ haystack.length < places.length then some none
  else do
    let table ← table? places
    slide? table places haystack 0

/-- A matcher by position. -/
def answer? : Algorithm → List Place → List UInt8 → Option (Option Nat)
  | .naive => naive?
  | .splitNaive => splitNaive?
  | .boyerMooreHorspool => horspool?

theorem slice?_eq {xs : List α} {start length : Nat} (h : start + length ≤ xs.length) :
    slice? xs start length = some ((xs.drop start).take length) :=
  if_pos h

/-! ## Windows -/

theorem placeFits?_eq {places : List Place} {window : List UInt8} {i : Nat}
    (hp : i < places.length) (hw : i < window.length) :
    placeFits? places window i = some (places[i].admits window[i]) := by
  simp only [placeFits?, List.getElem?_eq_getElem hp, List.getElem?_eq_getElem hw,
    Option.bind_eq_bind, Option.bind_some]
  cases hs : places[i].significant <;> simp [Place.admits, hs]

/-- Inside the window the comparison has an answer: whether all the places admit their bytes. -/
theorem placesFit?_spec {places : List Place} {window : List UInt8}
    (hlength : window.length = places.length) :
    ∀ is : List Nat, (∀ i ∈ is, i < places.length) →
      ∃ answer, placesFit? places window is = some answer ∧ (answer = true ↔
        ∀ i ∈ is, ∀ h : i < places.length, places[i].significant →
          window[i]? = some places[i].byte)
  | [], _ => ⟨true, rfl, by simp⟩
  | i :: is, hin => by
    obtain ⟨answer, hanswer, hiff⟩ :=
      placesFit?_spec hlength is fun j hj => hin j (List.mem_cons_of_mem _ hj)
    have hp : i < places.length := hin i List.mem_cons_self
    have hw : i < window.length := by omega
    simp only [placesFit?, placeFits?_eq hp hw, Option.bind_eq_bind, Option.bind_some]
    by_cases hadmits : places[i].admits window[i] = true
    · refine ⟨answer, by rw [if_pos hadmits, hanswer], ?_⟩
      rw [hiff, List.forall_mem_cons]
      refine ⟨fun hall => ⟨fun _ hs => ?_, hall⟩, fun hall => hall.2⟩
      rw [List.getElem?_eq_getElem hw, Place.admits_iff.1 hadmits hs]
    · refine ⟨false, by rw [if_neg hadmits]; rfl, ?_⟩
      simp only [Bool.false_eq_true, false_iff]
      intro hall
      refine hadmits (Place.admits_iff.2 fun hs => ?_)
      have := hall i List.mem_cons_self hp hs
      rw [List.getElem?_eq_getElem hw] at this
      exact Option.some.inj this

/-- In whatever order all the places are compared, the answer is whether they fit. -/
theorem placesFit?_eq_fits {places : List Place} {haystack : List UInt8} {start : Nat}
    (hstart : start + places.length ≤ haystack.length) {is : List Nat}
    (his : ∀ i, i ∈ is ↔ i < places.length) :
    placesFit? places ((haystack.drop start).take places.length) is
      = some (Matching.fits places (haystack.drop start)) := by
  have hlength : ((haystack.drop start).take places.length).length = places.length := by
    simp only [List.length_take, List.length_drop]
    omega
  obtain ⟨answer, hanswer, hiff⟩ := placesFit?_spec hlength is fun i hi => (his i).1 hi
  rw [hanswer, Option.some.injEq, Bool.eq_iff_iff, hiff, Matching.fits_iff]
  constructor
  · refine fun hall => ⟨by rw [List.length_drop]; omega, fun i hi hs => ?_⟩
    have := hall i ((his i).2 hi) hi hs
    rwa [List.getElem?_take, if_pos hi] at this
  · rintro ⟨-, hall⟩ i - hi hs
    rw [List.getElem?_take, if_pos hi]
    exact hall i hi hs

theorem search?_eq {test : Nat → Option Bool} {found : List UInt8 → Bool} :
    ∀ (ends bytes : List UInt8) (start : Nat),
      (∀ k < ends.length, test (start + k) = some (found (bytes.drop k))) →
        search? test ends.length start = some (Matching.firstWindow found start bytes ends)
  | [], _, _, _ => rfl
  | last :: ends, bytes, start, h => by
    have hfirst : test start = some (found bytes) := by simpa using h 0 (Nat.succ_pos _)
    have hrest : search? test ends.length (start + 1)
        = some (Matching.firstWindow found (start + 1) bytes.tail ends) :=
      search?_eq ends bytes.tail (start + 1) fun k hk => by
        rw [Nat.add_right_comm, Nat.add_assoc, h (k + 1) (Nat.succ_lt_succ hk), List.drop_tail]
    simp only [search?, List.length_cons, hfirst, Option.bind_eq_bind, Option.bind_some,
      Matching.firstWindow, hrest]
    split_ifs <;> rfl

theorem length_windowEnds {places : List Place} {haystack : List UInt8}
    (h : ¬ (places = [] ∨ haystack.length < places.length)) :
    (Matching.windowEnds places haystack).length = windows places haystack := by
  push Not at h
  have := List.length_pos_iff.2 h.1
  simp only [Matching.windowEnds, windows, List.length_drop]
  omega

/-- Nothing is found without places, and none of them in a haystack that is too short. -/
theorem naive_eq_none {places : List Place} {haystack : List UInt8}
    (h : places = [] ∨ haystack.length < places.length) :
    Matching.naive places haystack = none := by
  refine Matching.naive_eq_none_iff.2 (h.imp_right fun hlt o hoccurs => ?_)
  have := hoccurs.1
  omega

theorem naive?_eq (places : List Place) (haystack : List UInt8) :
    naive? places haystack = some (Matching.naive places haystack) := by
  unfold naive?
  split_ifs with h
  · rw [naive_eq_none h]
  · have hp : places ≠ [] := fun hp => h (.inl hp)
    rw [Matching.naive, if_neg hp, ← length_windowEnds h]
    refine search?_eq _ _ _ fun k hk => ?_
    rw [Matching.lt_length_windowEnds hp] at hk
    rw [Nat.zero_add, slice?_eq hk]
    exact placesFit?_eq_fits hk fun i => List.mem_range

/-! ## Literal runs -/

theorem runs?_eq (mask : List Bool) (i : Nat) :
    runs? mask i = some (LiteralRun.splitFrom i (mask.drop i)) := by
  induction i using runs?.induct mask with
  | case1 i hi ihRest ihNext =>
    rw [runs?, if_pos hi, List.getElem?_eq_getElem hi, List.drop_eq_getElem_cons hi]
    simp only [Option.bind_eq_bind, Option.bind_some]
    cases hs : mask[i] with
    | false => rw [if_neg Bool.false_ne_true, ihNext, LiteralRun.splitFrom]
    | true =>
      have hrest : slice? mask i (mask.length - i) = some (mask.drop i) := by
        rw [slice?_eq (by omega), List.take_of_length_le (by rw [List.length_drop])]
      have htake : (mask.drop i).takeWhile id = true :: (mask.drop (i + 1)).takeWhile id := by
        rw [List.drop_eq_getElem_cons hi, hs]
        rfl
      rw [if_pos rfl, hrest]
      simp only [Option.bind_some]
      have hdrop : (mask.drop (i + 1)).drop (((mask.drop (i + 1)).takeWhile id).length + 1)
          = mask.drop (i + (((mask.drop (i + 1)).takeWhile id).length + 1) + 1) := by
        rw [List.drop_drop, Nat.add_right_comm]
      rw [ihRest (mask.drop i), htake, LiteralRun.splitFrom, hdrop]
      rfl
  | case2 i hi =>
    rw [runs?, if_neg hi, List.drop_eq_nil_of_le (Nat.le_of_not_lt hi), LiteralRun.splitFrom]

theorem runsFit?_eq {bytes haystack : List UInt8} {start : Nat}
    (hstart : start + bytes.length ≤ haystack.length) :
    ∀ runs : List LiteralRun, (∀ run ∈ runs, run.start + run.length ≤ bytes.length) →
      runsFit? bytes haystack start runs
        = some (Matching.runsFit runs bytes (haystack.drop start))
  | [], _ => rfl
  | run :: runs, hin => by
    have ih := runsFit?_eq hstart runs fun r hr => hin r (List.mem_cons_of_mem _ hr)
    have hrun := hin run List.mem_cons_self
    rw [runsFit?, slice?_eq hrun, slice?_eq (by omega)]
    simp only [Option.bind_eq_bind, Option.bind_some, ih, Matching.runsFit, List.all_cons,
      LiteralRun.slice, List.drop_drop]
    split_ifs with hslice
    · rw [hslice, Bool.true_and]
    · rw [Bool.not_eq_true] at hslice
      rw [hslice, Bool.false_and]
      rfl

theorem splitNaive?_eq (places : List Place) (haystack : List UInt8) :
    splitNaive? places haystack = some (Matching.splitNaive places haystack) := by
  unfold splitNaive?
  split_ifs with h
  · rw [Matching.splitNaive_eq_naive, naive_eq_none h]
  · have hp : places ≠ [] := fun hp => h (.inl hp)
    simp only [runs?_eq, List.drop_zero, Option.bind_eq_bind, Option.bind_some]
    rw [Matching.splitNaive, if_neg hp, ← length_windowEnds h]
    refine search?_eq _ _ _ fun k hk => ?_
    rw [Matching.lt_length_windowEnds hp] at hk
    rw [Nat.zero_add]
    refine runsFit?_eq (by rwa [List.length_map]) _ fun run hrun => ?_
    rw [List.length_map, ← List.length_map Place.significant]
    exact (LiteralRun.mem_split hrun).1

/-! ## Skipping -/

theorem table?_eq (places : List Place) : table? places = some (SkipTable.build places) := by
  rcases hrev : places.reverse with _ | ⟨final, before⟩
  · rw [List.reverse_eq_nil_iff.1 hrev]
    rfl
  · have hbefore : places.take before.length = before.reverse := by
      rw [← List.reverse_reverse places, hrev, List.reverse_cons,
        List.take_left' (List.length_reverse ..)]
    rw [table?, Matching.length_of_reverse hrev]
    simp only []
    rw [slice?_eq (by rw [Matching.length_of_reverse hrev]; omega), List.drop_zero, hbefore,
      SkipTable.build_eq hrev]
    simp only [Option.bind_eq_bind, Option.bind_some, List.reverse_reverse]
    rfl

theorem windowEnds_eq_nil {places : List Place} {bytes : List UInt8}
    (h : bytes.length < places.length) : Matching.windowEnds places bytes = [] :=
  List.drop_eq_nil_of_le (by omega)

theorem slide?_eq {places before : List Place} {final : Place}
    (hrev : places.reverse = final :: before) (haystack : List UInt8) :
    ∀ n start, haystack.length - start ≤ n →
      slide? (SkipTable.build places) places haystack start
        = some (Matching.slide (SkipTable.build places) places final start (haystack.drop start)
            (Matching.windowEnds places (haystack.drop start))) := by
  have hpos := Matching.length_of_reverse hrev
  intro n
  induction n with
  | zero =>
    intro start hn
    rw [slide?, if_neg (by omega), windowEnds_eq_nil (by rw [List.length_drop]; omega),
      Matching.slide]
  | succ n ih =>
    intro start hn
    by_cases hstart : start + places.length ≤ haystack.length
    · obtain ⟨last, ends, hends⟩ :
          ∃ last ends, Matching.windowEnds places (haystack.drop start) = last :: ends := by
        refine List.exists_cons_of_length_pos ?_
        simp only [Matching.windowEnds, List.length_drop]
        omega
      have hlast : (haystack.drop start)[places.length - 1]? = some last := by
        have := congrArg (·[0]?) hends
        simpa [Matching.windowEnds] using this
      have hwindow :
          ((haystack.drop start).take places.length)[places.length - 1]? = some last := by
        rw [List.getElem?_take, if_pos (by omega), hlast]
      have hfits : placesFit? places ((haystack.drop start).take places.length)
          (List.range places.length).reverse = some (Matching.fits places (haystack.drop start)) :=
        placesFit?_eq_fits hstart fun i => by rw [List.mem_reverse, List.mem_range]
      rw [slide?, if_pos hstart, slice?_eq hstart, hends, Matching.slide]
      simp only [Option.bind_eq_bind, Option.bind_some, hfits, hwindow]
      cases hb : Matching.fits places (haystack.drop start) with
      | true =>
        rw [if_pos rfl, if_pos (by rw [Matching.admits_last_of_fits hrev hlast hb]; rfl)]
        rfl
      | false =>
        rw [if_neg Bool.false_ne_true, if_neg (by simp)]
        have hshift := SkipTable.shift_pos (SkipTable.build places) last
        rw [ih _ (by omega), ← hends]
        simp only [Matching.drop_windowEnds, List.drop_drop]
    · rw [slide?, if_neg hstart, windowEnds_eq_nil (by rw [List.length_drop]; omega),
        Matching.slide]

theorem horspool?_eq (places : List Place) (haystack : List UInt8) :
    horspool? places haystack = some (Matching.horspool places haystack) := by
  unfold horspool?
  split_ifs with h
  · rw [Matching.horspool_eq_naive, naive_eq_none h]
  · rcases hrev : places.reverse with _ | ⟨final, before⟩
    · exact absurd (.inl (List.reverse_eq_nil_iff.1 hrev)) h
    · have hlast : places.getLast? = some final := by
        rw [List.getLast?_eq_head?_reverse, hrev, List.head?_cons]
      rw [table?_eq]
      simp only [Option.bind_eq_bind, Option.bind_some]
      rw [slide?_eq hrev haystack _ 0 le_rfl, List.drop_zero, Matching.horspool, hlast]

/-- By position every matcher stays inside its lists, and answers as it does without positions. -/
theorem answer?_eq (algorithm : Algorithm) (places : List Place) (haystack : List UInt8) :
    answer? algorithm places haystack = some (algorithm.apply places haystack) := by
  cases algorithm with
  | naive => exact naive?_eq places haystack
  | splitNaive => exact splitNaive?_eq places haystack
  | boyerMooreHorspool => exact horspool?_eq places haystack

end Indexed

/-- Every matcher answers with the least offset at which the signature occurs, and with none if
there is no such offset or no place to match; and no position it asks for is outside of the list it
belongs to. -/
theorem Algorithm.apply_finds_first (algorithm : Algorithm) (places : List Place)
    (haystack : List UInt8) :
    (algorithm.apply places haystack = none ↔
        places = [] ∨ ∀ o, ¬ OccursAt places haystack o)
      ∧ (∀ o, algorithm.apply places haystack = some o ↔
          places ≠ [] ∧ OccursAt places haystack o ∧ ∀ j < o, ¬ OccursAt places haystack j)
      ∧ Indexed.answer? algorithm places haystack = some (algorithm.apply places haystack) := by
  refine ⟨?_, fun o => ?_, Indexed.answer?_eq algorithm places haystack⟩
  · rw [apply_eq_naive, Matching.naive_eq_none_iff]
  · rw [apply_eq_naive, Matching.naive_eq_some_iff]

end Landmark
