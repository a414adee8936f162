import Mathlib.Tactic.Common
import Landmark.Proofs.Lookups
import Landmark.Proofs.Skipping

/-!
# What a search of the module finds

A search for one match applies the matcher once to the bytes of the module, if there are any. With
one of the algorithms the answer of an entry that is searched is the place of the first occurrence
of its signature (`PatternEntry.exists_firstMatch`), and the finding that is kept of it is the
distance of that place from the start of the module (`Finding.capture_base_add`).
-/

namespace Landmark

theorem Scan.offsets_collect_one (find : List UInt8 → Option Nat) : ∀ bytes : List UInt8,
    (Scan.collect find 1 bytes).offsets = if bytes = [] then [] else (find bytes).toList
  | [] => rfl
  | byte :: bytes => by
    rcases hfind : find (byte :: bytes) with _ | o <;>
      simp [Scan.collect, Scan.extend, hfind]

/-- The bytes of the module, or why they cannot be had. -/
def Target.moduleBytes (target : Target) : Except Error (List UInt8) :=
  ((Access.of target).bytes target.memory target.image.span : Task Unit (List UInt8)).answer
    ⟨(), []⟩

theorem Search.found_eq_ok {search : Search} {target : Target} {address : UInt64}
    (h : search.found target = .ok address) :
    ∃ bytes offset, target.moduleBytes = .ok bytes
      ∧ search.matcher search.signature.places bytes = some offset
      ∧ address = target.image.base + UInt64.ofNat offset := by
  unfold found findFirstInModule findFirst findMany Task.answer at h
  rw [if_neg Nat.one_ne_zero] at h
  rcases hread : ((Access.of target).bytes target.memory target.image.span : Task Unit _)
    ⟨(), []⟩ with ⟨bytes, t⟩ | ⟨e, t⟩
  · have hbytes : target.moduleBytes = .ok bytes := by
      rw [Target.moduleBytes, Task.answer, hread]
    have hmany := Task.bind_ok (k := fun bytes => do
      Task.record (.scan (search.scan 1 bytes).applications)
      return (search.scan 1 bytes).offsets.map fun offset =>
        target.image.span.first + UInt64.ofNat offset) hread
    have hoffsets := Scan.offsets_collect_one (search.matcher search.signature.places) bytes
    rw [Task.bind_ok (hmany.trans (Task.bind_ok rfl))] at h
    rw [scan, hoffsets] at h
    split_ifs at h with hempty
    · cases h
    · rcases hfind : search.matcher search.signature.places bytes with _ | offset <;>
        rw [hfind] at h
      · cases h
      · cases h
        exact ⟨bytes, offset, hbytes, hfind, rfl⟩
  · rw [Task.bind_error (Task.bind_error hread)] at h
    cases h

/-- Whether the first occurrence of an entry's signature in the module is at an offset. -/
def PatternEntry.FirstMatch (target : Target) (settings : Settings) (entry : PatternEntry)
    (offset : Nat) : Prop :=
  ∃ signature bytes, entry.signature settings.format = .ok signature
    ∧ target.moduleBytes = .ok bytes ∧ OccursAt signature.places bytes offset
    ∧ ∀ before < offset, ¬ OccursAt signature.places bytes before

theorem PatternEntry.exists_firstMatch {target : Target} {settings : Settings}
    {entry : PatternEntry} {address : UInt64} (hmatcher : settings.matcher = none)
    (h : entry.sought target settings = .ok address) :
    ∃ offset, entry.FirstMatch target settings offset
      ∧ address = target.image.base + UInt64.ofNat offset := by
  unfold sought at h
  rcases hsignature : entry.signature settings.format with fault | signature <;>
    rw [hsignature] at h
  · cases h
  · obtain ⟨bytes, offset, hbytes, hfind, haddress⟩ := Search.found_eq_ok h
    rw [Settings.search, hmatcher] at hfind
    change settings.algorithm.apply signature.places bytes = some offset at hfind
    rw [Algorithm.apply_eq_naive, Matching.naive_eq_some_iff] at hfind
    exact ⟨offset, ⟨signature, bytes, hsignature, hbytes, hfind.2⟩, haddress⟩

theorem Finding.capture_base_add (image : Image) (offset : Nat) :
    Finding.capture (image.base + UInt64.ofNat offset) image
      = ⟨image.version, Int64.ofNat offset⟩ := by
  rw [capture, Image.offsetOf, UInt64.add_comm, UInt64.add_sub_cancel]
  rfl

end Landmark
