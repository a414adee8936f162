import Mathlib.Order.Bounds.Basic
import Landmark.Proofs.Scanning
import Landmark.Proofs.Trimming

/-!
# Where a trimmed signature occurs

Wildcards at the ends of a signature match whatever lies under them, so all they ask for is room
(`Matching.fits_of_wildcards`). Where there is room for the whole signature it occurs exactly if the
part between the wildcards occurs as far behind as there are wildcards in front
(`Matching.occursAt_padded`), and the places where it occurs are those of that part, moved back, but
for the ones too near to an end of the haystack (`Matching.occurrences_padded`). Trimming cuts a
signature to just that part (`Signature.ofMasked_trims`).
-/

namespace Landmark

namespace Matching

theorem fits_append : ∀ (first second : List Place) (bytes : List UInt8),
    fits (first ++ second) bytes = (fits first bytes && fits second (bytes.drop first.length))
  | [], _, _ => by simp [fits]
  | _ :: _, _, [] => by simp [fits]
  | place :: first, second, byte :: bytes => by
    simp [fits, fits_append first second bytes, Bool.and_assoc]

/-- Wildcards ask for room only. -/
theorem fits_of_wildcards {places : List Place}
    (h : ∀ place ∈ places, place.significant = false) (bytes : List UInt8) :
    fits places bytes = decide (places.length ≤ bytes.length) := by
  rw [Bool.eq_iff_iff, fits_iff, decide_eq_true_iff, and_iff_left_iff_imp]
  intro _ i hi hsignificant
  simp [h _ (List.getElem_mem hi)] at hsignificant

variable {before middle after : List Place} {haystack : List UInt8}

/-- Where there is room for the whole, wildcards at its ends make no difference. -/
theorem occursAt_padded (hbefore : ∀ place ∈ before, place.significant = false)
    (hafter : ∀ place ∈ after, place.significant = false) {o : Nat}
    (hroom : o + (before ++ middle ++ after).length ≤ haystack.length) :
    OccursAt (before ++ middle ++ after) haystack o
      ↔ OccursAt middle haystack (o + before.length) := by
  have hlength := hroom
  simp only [List.length_append] at hlength
  have hfront : before.length ≤ (haystack.drop o).length := by
    simp only [List.length_drop]
    omega
  have hend : after.length ≤ ((haystack.drop o).drop (before ++ middle).length).length := by
    simp only [List.length_drop, List.length_append]
    omega
  rw [occursAt_iff_fits hroom, occursAt_iff_fits (by omega), fits_append, fits_append,
    fits_of_wildcards hbefore, fits_of_wildcards hafter, decide_eq_true hfront,
    decide_eq_true hend, List.drop_drop, Bool.true_and, Bool.and_true]

theorem length_occurrences_le (places : List Place) (bytes : List UInt8) :
    (occurrences places bytes).length ≤ bytes.length := by
  unfold occurrences
  split_ifs
  · simp
  · simpa using List.length_filter_le (fun o => fits places (bytes.drop o))
      (List.range bytes.length)

variable (haystack) in
theorem occurrences_padded (hbefore : ∀ place ∈ before, place.significant = false)
    (hafter : ∀ place ∈ after, place.significant = false) (hmiddle : middle ≠ []) :
    occurrences (before ++ middle ++ after) haystack
      = ((occurrences middle haystack).filter fun o => before.length ≤ o
          ∧ o - before.length + (before ++ middle ++ after).length ≤ haystack.length).map
            (· - before.length) := by
  refine (pairwise_occurrences _ _).eq_of_mem_iff ?_ fun o => ?_
  · rw [List.pairwise_map]
    refine ((pairwise_occurrences middle haystack).filter _).imp_of_mem fun ha hb hlt => ?_
    simp only [List.mem_filter, decide_eq_true_eq] at ha hb
    omega
  · simp only [List.mem_map, List.mem_filter, decide_eq_true_eq, mem_occurrences]
    constructor
    · rintro ⟨-, hoccurs⟩
      have hroom := hoccurs.1
      refine ⟨o + before.length, ⟨⟨hmiddle, (occursAt_padded hbefore hafter hroom).1 hoccurs⟩,
        Nat.le_add_left _ _, ?_⟩, Nat.add_sub_cancel _ _⟩
      rwa [Nat.add_sub_cancel]
    · rintro ⟨o, ⟨⟨-, hoccurs⟩, hle, hroom⟩, rfl⟩
      refine ⟨by simp [hmiddle], (occursAt_padded hbefore hafter hroom).2 ?_⟩
      rwa [Nat.sub_add_cancel hle]

end Matching

namespace Signature

/-! ## The significant part by its positions -/

section Positions

variable {s : Signature} {first last : Nat}

theorem significant_at_iff {i : Nat} :
    s.mask[i]? = some true ↔ ∃ place, s.places[i]? = some place ∧ place.significant = true := by
  simp [mask]

/-- The places in front of the first significant one are wildcards. -/
theorem wildcard_of_mem_take (hfirst : IsLeast {i | s.mask[i]? = some true} first) :
    ∀ place ∈ s.places.take first, place.significant = false := by
  intro place hplace
  obtain ⟨i, hget⟩ := List.getElem?_of_mem hplace
  rw [List.getElem?_take] at hget
  split_ifs at hget with hlt
  rw [Bool.eq_false_iff]
  intro hsignificant
  have hle : first ≤ i := hfirst.2 (significant_at_iff.2 ⟨place, hget, hsignificant⟩)
  omega

/-- The places behind the last significant one are wildcards. -/
theorem wildcard_of_mem_drop (hlast : IsGreatest {i | s.mask[i]? = some true} last) :
    ∀ place ∈ s.places.drop (last + 1), place.significant = false := by
  intro place hplace
  obtain ⟨i, hget⟩ := List.getElem?_of_mem hplace
  rw [List.getElem?_drop] at hget
  rw [Bool.eq_false_iff]
  intro hsignificant
  have hle : last + 1 + i ≤ last := hlast.2 (significant_at_iff.2 ⟨place, hget, hsignificant⟩)
  omega

/-- The signature from its first to its last significant place. -/
def between (s : Signature) (first last : Nat) : Signature :=
  ⟨s.places.extract first (last + 1)⟩

theorem length_between (hlast : s.mask[last]? = some true) (hle : first ≤ last) :
    (s.between first last).places.length = last + 1 - first := by
  obtain ⟨place, hplace, -⟩ := significant_at_iff.1 hlast
  have hlt := (List.getElem?_eq_some_iff.1 hplace).1
  simp only [between, List.length_take, List.length_drop]
  omega

theorem length_take_first (hfirst : IsLeast {i | s.mask[i]? = some true} first) :
    (s.places.take first).length = first := by
  obtain ⟨place, hplace, -⟩ := significant_at_iff.1 hfirst.1
  exact List.length_take_of_le (List.getElem?_eq_some_iff.1 hplace).1.le

theorem getElem?_between {i : Nat} (h : i < last + 1 - first) :
    (s.between first last).places[i]? = s.places[first + i]? := by
  simp [between, h]

theorem isTrimmed_between (hfirst : IsLeast {i | s.mask[i]? = some true} first)
    (hlast : IsGreatest {i | s.mask[i]? = some true} last) : (s.between first last).IsTrimmed := by
  have hle : first ≤ last := hfirst.2 hlast.1
  obtain ⟨front, hfront, hsignificant⟩ := significant_at_iff.1 hfirst.1
  obtain ⟨back, hback, hsignificant'⟩ := significant_at_iff.1 hlast.1
  constructor
  · intro place hplace
    rw [Option.mem_def, List.head?_eq_getElem?, getElem?_between (by omega), Nat.add_zero,
      hfront] at hplace
    cases hplace
    exact hsignificant
  · intro place hplace
    rw [Option.mem_def, List.getLast?_eq_getElem?, length_between hlast.1 hle,
      getElem?_between (by omega), show first + (last + 1 - first - 1) = last by omega,
      hback] at hplace
    cases hplace
    exact hsignificant'

theorem places_eq_between (hle : first ≤ last) :
    s.places = s.places.take first ++ (s.between first last).places
      ++ s.places.drop (last + 1) := by
  have hdrop : s.places.drop (last + 1) = (s.places.drop first).drop (last + 1 - first) := by
    rw [List.drop_drop, Nat.add_sub_cancel' (by omega)]
  rw [List.append_assoc, between, hdrop, List.take_append_drop, List.take_append_drop]

theorem between_ne_nil (hfirst : IsLeast {i | s.mask[i]? = some true} first)
    (hlast : IsGreatest {i | s.mask[i]? = some true} last) :
    (s.between first last).places ≠ [] := by
  have hle : first ≤ last := hfirst.2 hlast.1
  refine List.ne_nil_of_length_pos ?_
  rw [length_between hlast.1 hle]
  omega

/-- Trimming leaves the positions from the first to the last significant one. -/
theorem trimmed_eq_between (hfirst : IsLeast {i | s.mask[i]? = some true} first)
    (hlast : IsGreatest {i | s.mask[i]? = some true} last) :
    s.trimmed = .ok (s.between first last) := by
  have htrim : trimPlaces s.places = (s.between first last).places := by
    refine trimPlaces_eq_iff.2 ⟨isTrimmed_between hfirst hlast, _, _,
      places_eq_between (hfirst.2 hlast.1), fun place hplace => ?_⟩
    rcases List.mem_append.1 hplace with hfront | hend
    · exact wildcard_of_mem_take hfirst place hfront
    · exact wildcard_of_mem_drop hlast place hend
  exact trimmed_eq_ok_iff.2 ⟨htrim, fun hnil => absurd hnil (between_ne_nil hfirst hlast)⟩

theorem trimmed_eq_error (hne : s.mask ≠ []) (h : true ∉ s.mask) :
    s.trimmed = .error .nothingSignificant := by
  refine trimmed_eq_error_iff.2 ⟨?_, by simpa [mask] using h, rfl⟩
  rintro hnil
  simp [mask, hnil] at hne

/-! ## Searching for the part -/

theorem occursAt_between (hfirst : IsLeast {i | s.mask[i]? = some true} first)
    (hlast : IsGreatest {i | s.mask[i]? = some true} last) {haystack : List UInt8} {o : Nat}
    (hroom : o + s.length ≤ haystack.length) :
    OccursAt s.places haystack o
      ↔ OccursAt (s.between first last).places haystack (o + first) := by
  have hparts := places_eq_between (s := s) (hfirst.2 hlast.1)
  have hfront : (s.places.take first).length = first := length_take_first hfirst
  rw [length, hparts] at hroom
  conv_lhs => rw [hparts]
  rw [Matching.occursAt_padded (wildcard_of_mem_take hfirst) (wildcard_of_mem_drop hlast) hroom,
    hfront]

/-- A scan finds a signature where it finds the part between its first and its last significant
place, that much further ahead, if there is room. -/
theorem offsets_scan_between (hfirst : IsLeast {i | s.mask[i]? = some true} first)
    (hlast : IsGreatest {i | s.mask[i]? = some true} last) (algorithm : Algorithm)
    {haystack : List UInt8} {count : Nat} (hcount : haystack.length ≤ count) :
    (Search.scan ⟨s, algorithm.apply⟩ count haystack).offsets
      = ((Search.scan ⟨s.between first last, algorithm.apply⟩ count haystack).offsets.filter
        fun o => first ≤ o ∧ o - first + s.length ≤ haystack.length).map (· - first) := by
  have hall (places : List Place) : (Matching.occurrences places haystack).take count
      = Matching.occurrences places haystack :=
    List.take_of_length_le ((Matching.length_occurrences_le places haystack).trans hcount)
  have hparts := places_eq_between (s := s) (hfirst.2 hlast.1)
  have hpadded := Matching.occurrences_padded haystack (wildcard_of_mem_take hfirst)
    (wildcard_of_mem_drop hlast) (between_ne_nil hfirst hlast)
  rw [← hparts, length_take_first hfirst] at hpadded
  rw [Search.offsets_scan, Search.offsets_scan, hall, hall]
  exact hpadded

end Positions

/-! ## Signatures made of bytes and a mask -/

theorem zipWith_bytes_mask (s : Signature) : List.zipWith Place.mk s.bytes s.mask = s.places := by
  simp [bytes, mask, List.zipWith_map]

variable {bytes : List UInt8} {mask : List Bool}

theorem bytes_zipWith (h : mask.length = bytes.length) :
    (⟨List.zipWith Place.mk bytes mask⟩ : Signature).bytes = bytes := by
  refine List.ext_getElem (by simp [Signature.bytes, h]) fun i _ _ => ?_
  simp [Signature.bytes]

theorem mask_zipWith (h : mask.length = bytes.length) :
    (⟨List.zipWith Place.mk bytes mask⟩ : Signature).mask = mask := by
  refine List.ext_getElem (by simp [Signature.mask, h]) fun i _ _ => ?_
  simp [Signature.mask]

theorem ofMasked_eq_trimmed (h : mask.length = bytes.length) :
    ofMasked bytes (some mask) true = trimmed ⟨List.zipWith Place.mk bytes mask⟩ := by
  simp [ofMasked, h]

/-- With trimming, bytes and a mask make the signature of the positions from the first to the last
significant one. The signature that is made without trimming occurs wherever it has room and that
part occurs at the right distance, so a search finds it where it finds the part, that much further
ahead, if there is room. A mask of another length is refused, and so is one without a significant
position unless it is empty. -/
theorem ofMasked_trims (bytes : List UInt8) (mask : List Bool) :
    (mask.length ≠ bytes.length →
        ofMasked bytes (some mask) true = .error (.maskLength mask.length bytes.length))
      ∧ (mask.length = bytes.length → mask ≠ [] → true ∉ mask →
        ofMasked bytes (some mask) true = .error .nothingSignificant)
      ∧ ∀ first last, mask.length = bytes.length → IsLeast {i | mask[i]? = some true} first →
        IsGreatest {i | mask[i]? = some true} last →
        ∃ whole cut, ofMasked bytes (some mask) false = .ok whole
          ∧ whole.bytes = bytes ∧ whole.mask = mask
          ∧ ofMasked bytes (some mask) true = .ok cut
          ∧ cut.bytes = bytes.extract first (last + 1) ∧ cut.mask = mask.extract first (last + 1)
          ∧ ofMasked cut.bytes (some cut.mask) true = .ok cut
          ∧ ∀ haystack : List UInt8,
            (∀ o, o + bytes.length ≤ haystack.length →
              (OccursAt whole.places haystack o ↔ OccursAt cut.places haystack (o + first)))
            ∧ ∀ (algorithm : Algorithm) (count : Nat), haystack.length ≤ count →
              (Search.scan ⟨whole, algorithm.apply⟩ count haystack).offsets
                = ((Search.scan ⟨cut, algorithm.apply⟩ count haystack).offsets.filter fun o =>
                  first ≤ o ∧ o - first + bytes.length ≤ haystack.length).map (· - first) := by
  refine ⟨fun h => by simp [ofMasked, h], fun h hne hnone => ?_,
    fun first last h hfirst hlast => ?_⟩
  · rw [ofMasked_eq_trimmed h]
    exact trimmed_eq_error (by rwa [mask_zipWith h]) (by rwa [mask_zipWith h])
  · set whole : Signature := ⟨List.zipWith Place.mk bytes mask⟩
    have hbytes : whole.bytes = bytes := bytes_zipWith h
    have hmask : whole.mask = mask := mask_zipWith h
    have hlength : whole.length = bytes.length := by
      rw [← hbytes, Signature.bytes, List.length_map, length]
    rw [← hmask] at hfirst hlast
    have hcut := trimmed_eq_between hfirst hlast
    refine ⟨whole, whole.between first last, by simp [ofMasked, h, whole], hbytes, hmask,
      (ofMasked_eq_trimmed h).trans hcut, ?_, ?_, ?_, fun haystack => ⟨fun o hroom => ?_,
      fun algorithm count hcount => ?_⟩⟩
    · rw [← hbytes]
      simp [Signature.bytes, between]
    · rw [← hmask]
      simp [Signature.mask, between]
    · rw [ofMasked_eq_trimmed (by simp [Signature.bytes, Signature.mask]), zipWith_bytes_mask]
      exact (isTrimmed_between hfirst hlast).trimmed_eq
    · rw [← hlength] at hroom
      exact occursAt_between hfirst hlast hroom
    · rw [← hlength]
      exact offsets_scan_between hfirst hlast algorithm hcount

/-- The part is found three times, at both ends of the haystack too, where the whole has no room. -/
theorem ofMasked_trims_ends :
    let bytes : List UInt8 := [7, 0x0A, 9, 0xFF, 1]
    let mask := [false, true, false, true, false]
    let haystack : List UInt8 := [0x0A, 0, 0xFF, 0x0A, 1, 0xFF, 0x0A, 2, 0xFF]
    mask.length = bytes.length
      ∧ IsLeast {i | mask[i]? = some true} 1 ∧ IsGreatest {i | mask[i]? = some true} 3
      ∧ ∃ whole cut, ofMasked bytes (some mask) false = .ok whole
        ∧ ofMasked bytes (some mask) true = .ok cut ∧ cut.bytes = [0x0A, 9, 0xFF]
        ∧ (Search.scan ⟨cut, Algorithm.naive.apply⟩ 9 haystack).offsets = [0, 3, 6]
        ∧ (Search.scan ⟨whole, Algorithm.naive.apply⟩ 9 haystack).offsets = [2] := by
  intro bytes mask haystack
  have hmask (i : Nat) (h : mask[i]? = some true) : 1 ≤ i ∧ i ≤ 3 := by
    rcases i with _ | _ | _ | _ | _ | i <;> simp [mask] at h ⊢
  have hfirst : IsLeast {i | mask[i]? = some true} 1 := ⟨rfl, fun i h => (hmask i h).1⟩
  have hlast : IsGreatest {i | mask[i]? = some true} 3 := ⟨rfl, fun i h => (hmask i h).2⟩
  obtain ⟨whole, cut, hwhole, -, -, hcut, hbytes, -, -, hsearch⟩ :=
    (ofMasked_trims bytes mask).2.2 1 3 rfl hfirst hlast
  have hfound := (hsearch haystack).2 .naive 9 le_rfl
  have hparts : (Search.scan ⟨cut, Algorithm.naive.apply⟩ 9 haystack).offsets = [0, 3, 6] := by
    cases hcut
    decide
  refine ⟨rfl, hfirst, hlast, whole, cut, hwhole, hcut, hbytes, hparts, ?_⟩
  rw [hfound, hparts]
  decide

end Signature

end Landmark
