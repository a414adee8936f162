import Landmark.Proofs.Indexing

/-!
# The literal runs of a mask are its maximal ones

A stretch of significant positions is maximal if there is no significant position just before or
just behind it. Splitting goes through the mask from left to right and never begins in the middle of
such a stretch: what is left of the mask always begins behind a wildcard or at its very start, also
where a position has been passed over unseen (`splitFrom_ends`). So it comes by the maximal
stretches, each of them once (`mem_split_iff`), in order and with a wildcard between any two
(`split_partitions`).
-/

namespace Landmark

namespace LiteralRun

/-- The position behind the last one of a run. -/
def stop (run : LiteralRun) : Nat :=
  run.start + run.length

/-- A run of significant positions of a mask that no longer one contains. -/
structure IsMaximal (mask : List Bool) (run : LiteralRun) : Prop where
  pos : 1 ≤ run.length
  stop_le : run.stop ≤ mask.length
  significant : ∀ i, run.start ≤ i → i < run.stop → mask[i]? = some true
  before : ∀ i, i + 1 = run.start → mask[i]? = some false
  behind : run.stop < mask.length → mask[run.stop]? = some false

variable {mask : List Bool}

theorem eq_some_false_of_lt {i : Nat} (h : i < mask.length) (hne : mask[i]? ≠ some true) :
    mask[i]? = some false := by
  rw [List.getElem?_eq_getElem h] at hne ⊢
  simpa using hne

/-- Where the rest of a mask does not begin in the middle of a run, each run of it ends on both
sides at a position that is not significant. -/
theorem splitFrom_ends (start : Nat) (rest : List Bool) (hrest : mask.drop start = rest)
    (hfront : ∀ i, i + 1 = start → mask[i]? ≠ some true) :
    ∀ run ∈ splitFrom start rest,
      (∀ i, i + 1 = run.start → mask[i]? ≠ some true) ∧ mask[run.stop]? ≠ some true := by
  induction start, rest using splitFrom.induct with
  | case1 start => simp [splitFrom]
  | case2 start rest ih =>
    have hat : mask[start]? = some false := by
      rw [← Nat.add_zero start, ← List.getElem?_drop, hrest]
      rfl
    rw [splitFrom]
    refine ih (by rw [← List.drop_drop, hrest]; rfl) fun i hi => ?_
    rw [Nat.succ.inj hi, hat]
    exact fun h => Bool.noConfusion (Option.some.inj h)
  | case3 start rest length ih =>
    have hlength : length = (rest.takeWhile id).length + 1 := rfl
    -- the position behind the run is the one that is passed over together with it
    have hbehind : mask[start + length]? ≠ some true := by
      rw [← List.getElem?_drop, hrest, hlength, List.getElem?_cons_succ]
      exact (getElem?_takeWhile_id rest).2
    intro run hrun
    rw [splitFrom] at hrun
    rcases List.mem_cons.1 hrun with rfl | hrun
    · exact ⟨hfront, hbehind⟩
    · refine ih ?_ (fun i hi => ?_) run hrun
      · rw [Nat.add_assoc, ← List.drop_drop, hrest, List.drop_succ_cons]
      · rwa [Nat.succ.inj hi]

/-- A run ends before the next one begins, and not just before it. -/
theorem pairwise_splitFrom (start : Nat) (rest : List Bool) :
    (splitFrom start rest).Pairwise fun run next => run.stop < next.start := by
  induction start, rest using splitFrom.induct with
  | case1 start => simp [splitFrom]
  | case2 start rest ih => rwa [splitFrom]
  | case3 start rest length ih =>
    rw [splitFrom, List.pairwise_cons]
    refine ⟨fun next hnext => ?_, ih⟩
    exact Nat.lt_of_succ_le (mem_splitFrom _ _ next hnext).1

theorem isMaximal_of_mem_split {run : LiteralRun} (h : run ∈ split mask) : IsMaximal mask run := by
  obtain ⟨-, hpos, -, -⟩ := mem_splitFrom 0 mask run h
  obtain ⟨hstop, hall⟩ := mem_split h
  obtain ⟨hbefore, hbehind⟩ := splitFrom_ends 0 mask rfl (fun _ hi => nomatch hi) run h
  refine ⟨hpos, hstop, hall, fun i hi => ?_, fun hlt => eq_some_false_of_lt hlt hbehind⟩
  exact eq_some_false_of_lt (by omega) (hbefore i hi)

/-- No run reaches beyond the front of a maximal one. -/
theorem IsMaximal.start_le {run run' : LiteralRun} (h : IsMaximal mask run)
    (h' : IsMaximal mask run') {i : Nat} (hi : run.start ≤ i) (hi' : i < run'.stop) :
    run.start ≤ run'.start := by
  by_contra hlt
  obtain ⟨j, hj⟩ : ∃ j, j + 1 = run.start := ⟨run.start - 1, by omega⟩
  have hsignificant := h'.significant j (by omega) (by omega)
  rw [h.before j hj] at hsignificant
  cases hsignificant

/-- No run reaches beyond the end of a maximal one. -/
theorem IsMaximal.stop_le_stop {run run' : LiteralRun} (h : IsMaximal mask run)
    (h' : IsMaximal mask run') {i : Nat} (hi : run'.start ≤ i) (hi' : i < run.stop) :
    run'.stop ≤ run.stop := by
  by_contra hlt
  have hsignificant := h'.significant run.stop (by omega) (by omega)
  rw [h.behind (by have := h'.stop_le; omega)] at hsignificant
  cases hsignificant

/-- Maximal runs with a position in common are the same. -/
theorem IsMaximal.eq_of_common {run run' : LiteralRun} (h : IsMaximal mask run)
    (h' : IsMaximal mask run') {i : Nat} (hi : run.start ≤ i ∧ i < run.stop)
    (hi' : run'.start ≤ i ∧ i < run'.stop) : run = run' := by
  have hstart : run.start = run'.start :=
    Nat.le_antisymm (h.start_le h' hi.1 hi'.2) (h'.start_le h hi'.1 hi.2)
  have hstop : run.stop = run'.stop :=
    Nat.le_antisymm (h'.stop_le_stop h hi.1 hi'.2) (h.stop_le_stop h' hi'.1 hi.2)
  cases run
  cases run'
  simp only [stop] at hstart hstop
  simp only [mk.injEq]
  omega

theorem significant_iff_exists_run {i : Nat} :
    mask[i]? = some true ↔ ∃ run ∈ split mask, run.start ≤ i ∧ i < run.stop := by
  constructor
  · intro h
    have hex := exists_run_of_significant 0 mask i h
    rwa [Nat.zero_add] at hex
  · rintro ⟨run, hrun, hstart, hstop⟩
    exact (mem_split hrun).2 i hstart hstop

/-- The runs of a mask are its maximal ones. -/
theorem mem_split_iff {run : LiteralRun} : run ∈ split mask ↔ IsMaximal mask run := by
  refine ⟨isMaximal_of_mem_split, fun h => ?_⟩
  have hlt : run.start < run.stop := Nat.lt_add_of_pos_right h.pos
  obtain ⟨run', hrun', hcommon⟩ :=
    significant_iff_exists_run.1 (h.significant run.start le_rfl hlt)
  rwa [h.eq_of_common (isMaximal_of_mem_split hrun') ⟨le_rfl, hlt⟩ hcommon]

/-- Splitting a mask ends, by position too, where nothing outside of the mask is looked at. Its runs
are the maximal ones of the mask and no others, each of them once, in ascending order and with a
wildcard between any two; together they cover the significant positions and nothing else. -/
theorem split_partitions (mask : List Bool) :
    Indexed.runs? mask 0 = some (split mask)
      ∧ (∀ run, run ∈ split mask ↔ IsMaximal mask run)
      ∧ (split mask).Pairwise (fun run next => run.start < next.start
        ∧ ∃ i, run.stop ≤ i ∧ i < next.start ∧ mask[i]? = some false)
      ∧ ∀ i, mask[i]? = some true ↔ ∃ run ∈ split mask, run.start ≤ i ∧ i < run.stop := by
  refine ⟨Indexed.runs?_eq mask 0, fun run => mem_split_iff, ?_, fun i =>
    significant_iff_exists_run⟩
  refine (pairwise_splitFrom 0 mask).imp_of_mem fun {run next} hrun hnext hlt => ?_
  have hmax := isMaximal_of_mem_split hrun
  have hmax' := isMaximal_of_mem_split hnext
  have hle : run.start ≤ run.stop := Nat.le_add_right _ _
  have hle' : next.start ≤ next.stop := Nat.le_add_right _ _
  have hstop := hmax'.stop_le
  exact ⟨by omega, run.stop, le_rfl, hlt, hmax.behind (by omega)⟩

/-- The position behind a run is passed over with it, and the next run may begin right behind. -/
example : split [true, true, false, true, false, false, true] = [⟨0, 2⟩, ⟨3, 1⟩, ⟨6, 1⟩] := by
  decide +kernel

end LiteralRun

end Landmark
