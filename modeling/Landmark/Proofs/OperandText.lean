import Mathlib.Algebra.Group.Int.Defs
import Mathlib.Tactic.Common
import Landmark.Operator.Program
import Landmark.Proofs.Numerals

/-!
# Computed addresses as operands

A computed address is handed on as its hexadecimal text, and what it means to the operator above
depends on how that reads it. As a target it is the same address (`readTarget_writeAddress`). As an
offset it is a distance up to the middle of the address space and nothing beyond that, except that
the eight digits of an address from `80000000` to `FFFFFFFF` stand for a negative distance
(`readOffset_writeAddress`). As a load width it is nothing at all, since each name of a width has a
letter that is no hexadecimal digit (`LoadWidth.read_writeAddress`).
-/

namespace Landmark

namespace Operand

open Landmark.Numeral (digits digits_ne_nil mem_digits)

theorem digit_not_radix_mark : ∀ d < 16, Numeral.digit d ≠ 'x' ∧ Numeral.digit d ≠ 'X' := by
  decide

/-- A text without the letter of a mark has no mark. -/
theorem dropRadixMark_eq_self {cs : List Char} (h : 'x' ∉ cs ∧ 'X' ∉ cs) :
    dropRadixMark cs = cs := by
  unfold dropRadixMark
  split
  · exact absurd (by simp) h.1
  · exact absurd (by simp) h.2
  · rfl

theorem dropRadixMark_digits (n : Nat) : dropRadixMark (digits 16 n) = digits 16 n := by
  have hmark : ∀ c ∈ digits 16 n, c ≠ 'x' ∧ c ≠ 'X' := by
    intro c hc
    obtain ⟨d, hd, rfl⟩ := mem_digits (by omega) n hc
    exact digit_not_radix_mark d hd
  exact dropRadixMark_eq_self ⟨fun h => (hmark 'x' h).1 rfl, fun h => (hmark 'X' h).2 rfl⟩

theorem toList_writeAddress (address : UInt64) :
    (writeAddress address).toList = digits 16 address.toNat := by
  rw [writeAddress, Numeral.hex, Numeral.write, String.toList_ofList]

theorem trim_writeAddress (address : UInt64) :
    Text.trim (writeAddress address) = writeAddress address := by
  refine Text.trim_eq_self fun c hc => ?_
  rw [toList_writeAddress] at hc
  exact (Numeral.not_sign_nor_blank_of_mem_digits (by omega) (by omega) hc).2.2

theorem writeAddress_ne_empty (address : UInt64) : writeAddress address ≠ "" := by
  intro h
  have htext := toList_writeAddress address
  rw [h, String.toList_empty] at htext
  exact digits_ne_nil 16 _ htext.symm

/-- The digits of an address and a bound on its value decide how a reader takes them. -/
theorem readChars_writeAddress (bound : Nat) (address : UInt64) :
    Numeral.readChars 16 bound (digits 16 address.toNat)
      = if address.toNat ≤ bound then .ok address.toNat else .error .tooLarge :=
  Numeral.readChars_digits_eq_ite (by omega) (by omega) address.toNat

theorem readTarget_writeAddress (address : UInt64) :
    readTarget (writeAddress address) = .ok address := by
  have hbound : address.toNat ≤ UInt64.size - 1 := Nat.le_sub_one_of_lt address.toNat_lt
  simp only [readTarget, trim_writeAddress, if_neg (writeAddress_ne_empty address),
    toList_writeAddress, dropRadixMark_digits, readChars_writeAddress, if_pos hbound,
    UInt64.ofNat_toNat]

/-- A computed address as an offset: the upper half of the first 2 ^ 32 addresses stands for the
negative offsets, and the upper half of the address space for none. -/
def asOffset (address : UInt64) : Except OperandFault Int64 :=
  if address.toNat < 2 ^ 31 ∨ 2 ^ 32 ≤ address.toNat ∧ address.toNat < 2 ^ 63 then
    .ok (Int64.ofInt address.toNat)
  else if address.toNat < 2 ^ 32 then
    .ok (Int64.ofInt ((address.toNat : Int) - 2 ^ 32))
  else .error (.badOffset (writeAddress address) .tooLarge)

theorem length_digits_eq_eight_iff (n : Nat) :
    (digits 16 n).length = 8 ↔ 16 ^ 7 ≤ n ∧ n < 16 ^ 8 := by
  have hfewer := Numeral.length_digits_le_iff (by omega : 2 ≤ 16) n 7 (by omega)
  have hatMost := Numeral.length_digits_le_iff (by omega : 2 ≤ 16) n 8 (by omega)
  omega

theorem readPlain_digits (address : UInt64) :
    readPlain (digits 16 address.toNat)
      = if 2 ^ 31 ≤ address.toNat ∧ address.toNat < 2 ^ 32 then
          .ok ((address.toNat : Int) - 2 ^ 32)
        else if address.toNat < 2 ^ 63 then .ok address.toNat
        else .error .tooLarge := by
  have hsize : UInt32.size = 2 ^ 32 := rfl
  have hhalf : UInt64.size / 2 = 2 ^ 63 := rfl
  have hdigits := length_digits_eq_eight_iff address.toNat
  unfold readPlain
  rw [readChars_writeAddress, readChars_writeAddress, hsize, hhalf]
  rcases Decidable.em ((digits 16 address.toNat).length = 8) with hlength | hlength
  · -- below 2 ^ 31 the two's complement reading of eight digits is the number itself
    obtain ⟨hlow, hhigh⟩ := hdigits.1 hlength
    have hread : (address.toNat : Int).bmod (2 ^ 32)
        = if 2 ^ 31 ≤ address.toNat then (address.toNat : Int) - 2 ^ 32
          else (address.toNat : Int) := by
      rw [Int.bmod_def, Int.emod_eq_of_lt (by omega) (by omega)]
      split_ifs <;> omega
    rw [if_pos hlength, if_pos (by omega)]
    refine (congrArg Except.ok hread).trans ?_
    split_ifs <;> first | rfl | omega
  · have hother : address.toNat < 16 ^ 7 ∨ 16 ^ 8 ≤ address.toNat := by
      by_contra hno
      exact hlength (hdigits.2 ⟨by omega, by omega⟩)
    rw [if_neg hlength]
    split_ifs <;> first | rfl | omega

theorem readOffset_writeAddress (address : UInt64) :
    readOffset (writeAddress address) = asOffset address := by
  have hsign : ∀ c ∈ digits 16 address.toNat, c ≠ '+' ∧ c ≠ '-' ∧ Text.isBlank c = false :=
    fun c hc => Numeral.not_sign_nor_blank_of_mem_digits (by omega) (by omega) hc
  have hminus : (digits 16 address.toNat).head? ≠ some '-' := fun h =>
    (hsign _ (List.mem_of_head? h)).2.1 rfl
  have hunsigned : hasSign (digits 16 address.toNat) = false := by
    generalize digits 16 address.toNat = cs at hsign
    unfold hasSign
    split
    · exact absurd rfl (hsign '+' List.mem_cons_self).1
    · exact absurd rfl (hsign '-' List.mem_cons_self).2.1
    · rfl
  simp only [readOffset, trim_writeAddress, if_neg (writeAddress_ne_empty address),
    toList_writeAddress, hminus, Bool.false_eq_true, if_false, dropRadixMark_digits,
    hunsigned, readPlain_digits, asOffset]
  split_ifs <;> first | rfl | omega

end Operand

namespace LoadWidth

/-- The name of a width has a letter that is no hexadecimal digit. -/
theorem exists_letter : ∀ width : LoadWidth, ∃ c ∈ width.name.toList.map Char.toLower,
    ∀ d < 16, (Numeral.digit d).toLower ≠ c
  | .byte => ⟨'y', by decide, by decide⟩
  | .word => ⟨'w', by decide, by decide⟩
  | .dword => ⟨'w', by decide, by decide⟩
  | .pointer => ⟨'p', by decide, by decide⟩

/-- A computed address names no width. -/
theorem read_writeAddress (address : UInt64) :
    read (Operand.writeAddress address)
      = .error (.unknownWidth (Operand.writeAddress address)) := by
  have hnone : all.find? (fun width =>
      Text.sameIgnoringCase width.name (Operand.writeAddress address)) = none := by
    rw [List.find?_eq_none]
    intro width _ hsame
    obtain ⟨c, hc, hother⟩ := exists_letter width
    rw [Text.sameIgnoringCase, beq_iff_eq, Operand.toList_writeAddress] at hsame
    rw [hsame, List.mem_map] at hc
    obtain ⟨c', hc', rfl⟩ := hc
    obtain ⟨d, hd, rfl⟩ := Numeral.mem_digits (by omega) _ hc'
    exact hother d hd rfl
  simp only [read, Operand.trim_writeAddress, if_neg (Operand.writeAddress_ne_empty address), hnone]

end LoadWidth

end Landmark
