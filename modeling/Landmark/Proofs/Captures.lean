import Mathlib.Tactic.Common
import Landmark.Proofs.Lookups
import Landmark.Proofs.Trimming

/-!
# Findings that were just made

A finding keeps how far an address is from the base of the module it was made in, so in a module at
another base it gives the address that is as far from that one. It also keeps the module's version
as that was reported, and is held against a version only after being trimmed. So it holds for the
modules of its version, the one it was made in among them, exactly if the version has no blank at
either end (`Finding.address?_capture`).
-/

namespace Landmark

namespace Text

/-- Whether a text begins or ends with a blank character. -/
def HasBlankEnd (s : String) : Prop :=
  ∃ c, (s.toList.head? = some c ∨ s.toList.getLast? = some c) ∧ isBlank c = true

theorem trimChars_eq_self_iff {cs : List Char} :
    trimChars cs = cs ↔ cs.dropWhile isBlank = cs ∧ cs.rdropWhile isBlank = cs :=
  rdropWhile_dropWhile_eq_iff.trans (and_iff_left ⟨[], [], by simp, by simp⟩)

/-- Trimming leaves a text as it is exactly if no blank is at either end of it. -/
theorem trim_eq_self_iff {s : String} : trim s = s ↔ ¬ HasBlankEnd s := by
  have htrim : trim s = s ↔ trimChars s.toList = s.toList := by
    rw [trim, ← String.toList_inj, String.toList_ofList]
  rw [htrim, trimChars_eq_self_iff, List.dropWhile_eq_self_iff, List.rdropWhile_eq_self_iff,
    HasBlankEnd]
  generalize s.toList = cs
  rcases cs with _ | ⟨c, cs⟩
  · simp
  · simp only [List.length_cons, Nat.succ_pos, List.getElem_cons_zero, forall_true_left,
      List.head?_cons, Option.some.injEq, List.getLast?_eq_some_getLast (List.cons_ne_nil c cs),
      ne_eq, reduceCtorEq, not_false_eq_true]
    constructor
    · rintro ⟨hfirst, hlast⟩ ⟨d, rfl | rfl, hblank⟩
      · exact hfirst hblank
      · exact hlast hblank
    · intro h
      exact ⟨fun hblank => h ⟨_, .inl rfl, hblank⟩, fun hblank => h ⟨_, .inr rfl, hblank⟩⟩

end Text

namespace Image

/-- Distances are measured modulo the size of the address space. -/
theorem addressAt_offsetOf_eq_ofInt (image image' : Image) (address : UInt64) :
    image'.addressAt (image.offsetOf address)
      = UInt64.ofInt (address.toNat - image.base.toNat + image'.base.toNat) := by
  have := address.toNat_lt
  have := image.base.toNat_lt
  have := image'.base.toNat_lt
  rw [addressAt_offsetOf_of, ← UInt64.toNat_inj, UInt64.toNat_add, UInt64.toNat_sub]
  simp only [UInt64.ofInt, UInt64.toNat_ofNat']
  omega

end Image

namespace Finding

theorem isCurrent_capture_iff {image image' : Image} (h : image.version = image'.version)
    (address : UInt64) :
    (capture address image).isCurrent image' = true ↔ ¬ Text.HasBlankEnd image.version := by
  rw [isCurrent, capture, beq_iff_eq, ← h, Text.trim_eq_self_iff]

/-- A finding that was just made gives, in every module of the version it was made in, the address
that is as far from the base; but it is never taken for current, not even where it was made, when
the version has a blank at an end. -/
theorem address?_capture {image image' : Image} (h : image.version = image'.version)
    (address : UInt64) :
    (¬ Text.HasBlankEnd image.version →
        (capture address image).address? image'
            = some (UInt64.ofInt (address.toNat - image.base.toNat + image'.base.toNat))
          ∧ (capture address image).address? image = some address)
      ∧ (Text.HasBlankEnd image.version →
        (capture address image).address? image' = none
          ∧ (capture address image).address? image = none) := by
  have hthere := isCurrent_capture_iff h address
  have hhere := isCurrent_capture_iff (rfl : image.version = image.version) address
  constructor
  · intro hends
    rw [address?, address?, if_pos (hthere.2 hends), if_pos (hhere.2 hends)]
    exact ⟨congrArg some (image.addressAt_offsetOf_eq_ofInt image' address),
      congrArg some (image.addressAt_offsetOf address)⟩
  · intro hends
    rw [address?, address?, if_neg (hthere.not.2 (not_not_intro hends)),
      if_neg (hhere.not.2 (not_not_intro hends))]
    exact ⟨rfl, rfl⟩

/-- A module that lies near the end of the address space is mapped again near its start: an address
below the base wraps around, as it does for the base itself. -/
theorem address?_capture_wrapping :
    let image : Image := ⟨0xFFFFFFFFFFFF0000, 0x1000, "1.0"⟩
    let image' : Image := ⟨0x8, 0x1000, "1.0"⟩
    image.version = image'.version ∧ ¬ Text.HasBlankEnd image.version
      ∧ (capture 0xFFFFFFFFFFFEFFF0 image).address? image' = some 0xFFFFFFFFFFFFFFF8 := by
  intro image image'
  have hends : ¬ Text.HasBlankEnd image.version := Text.trim_eq_self_iff.1 (by decide)
  have hversion : image.version = image'.version := rfl
  have hfound := ((address?_capture hversion 0xFFFFFFFFFFFEFFF0).1 hends).1
  exact ⟨hversion, hends, hfound.trans (by decide)⟩

/-- A finding that was made in a module whose version has blanks around it does not hold for that
module. -/
theorem address?_capture_blank_ends :
    let image : Image := ⟨0x140000000, 0x100000, " 1.0 "⟩
    let image' : Image := ⟨0x7FF600000000, 0x100000, " 1.0 "⟩
    image.version = image'.version
      ∧ (capture 0x140001234 image).address? image'
        ≠ some (UInt64.ofInt (0x140001234 - 0x140000000 + 0x7FF600000000))
      ∧ (capture 0x140001234 image).address? image ≠ some 0x140001234 := by
  decide

end Finding

end Landmark
