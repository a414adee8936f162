import Mathlib.Algebra.Group.Nat.Defs
import Mathlib.Tactic.Common
import Landmark.Document.Finding

/-!
# Reading back what was written in digits

A number that was written in some radix is read back from its digits (`readChars_digits`), whatever
text stands behind them for the digits read so far (`readDigits_digits`). The digits of a number are
neither signs nor blanks, so trimming leaves them alone, and the stored text of a signed distance
gives the distance back (`readValue_writeValue`).
-/

namespace Landmark

namespace Numeral

theorem digitValue_digit : ∀ d < 36, digitValue (digit d) = some d := by decide

theorem digitIn_digit {radix d : Nat} (hradix : radix ≤ 36) (h : d < radix) :
    digitIn radix (digit d) = some d := by
  simp [digitIn, digitValue_digit d (by omega), Option.filter, h]

/-- Digits are read as the number that they were written for, if that stays within the bound. -/
theorem readDigits_digits {radix bound : Nat} (hlow : 2 ≤ radix) (hhigh : radix ≤ 36)
    (n : Nat) : ∀ cs, n ≤ bound →
      readDigits radix bound 0 (digits radix n ++ cs) = readDigits radix bound n cs := by
  induction n using digits.induct radix with
  | case1 n hn ih =>
    intro cs hbound
    have hmod : n % radix < radix := Nat.mod_lt _ (by omega)
    have hdiv : n / radix * radix + n % radix = n := Nat.div_add_mod' n radix
    rw [digits, dif_pos hn, List.append_assoc, ih _ (by have := Nat.div_le_self n radix; omega),
      List.singleton_append, readDigits, digitIn_digit hhigh hmod]
    simp only [hdiv, if_pos hbound]
  | case2 n hn =>
    intro cs hbound
    have hlt : n < radix := by
      by_contra hge
      exact hn ⟨hlow, by omega⟩
    rw [digits, dif_neg hn, List.singleton_append, readDigits, digitIn_digit hhigh hlt]
    simp only [Nat.zero_mul, Nat.zero_add, if_pos hbound]

/-- Digits of a number above the bound are refused, whatever follows them. -/
theorem readDigits_digits_of_lt {radix bound : Nat} (hlow : 2 ≤ radix) (hhigh : radix ≤ 36)
    (n : Nat) : ∀ cs, bound < n →
      readDigits radix bound 0 (digits radix n ++ cs) = .error .tooLarge := by
  induction n using digits.induct radix with
  | case1 n hn ih =>
    intro cs hbound
    have hmod : n % radix < radix := Nat.mod_lt _ (by omega)
    have hdiv : n / radix * radix + n % radix = n := Nat.div_add_mod' n radix
    rw [digits, dif_pos hn, List.append_assoc]
    rcases Nat.lt_or_ge bound (n / radix) with hfront | hfront
    · exact ih _ hfront
    · rw [readDigits_digits hlow hhigh _ _ hfront, List.singleton_append, readDigits,
        digitIn_digit hhigh hmod]
      simp only [hdiv, if_neg (Nat.not_le.2 hbound)]
  | case2 n hn =>
    intro cs hbound
    have hlt : n < radix := by
      by_contra hge
      exact hn ⟨hlow, by omega⟩
    rw [digits, dif_neg hn, List.singleton_append, readDigits, digitIn_digit hhigh hlt]
    simp only [Nat.zero_mul, Nat.zero_add, if_neg (Nat.not_le.2 hbound)]

/-- The digits of a number are those of values below the radix. -/
theorem mem_digits {radix : Nat} (hlow : 2 ≤ radix) (n : Nat) {c : Char}
    (h : c ∈ digits radix n) : ∃ d < radix, c = digit d := by
  induction n using digits.induct radix with
  | case1 n hn ih =>
    rw [digits, dif_pos hn, List.mem_append, List.mem_singleton] at h
    rcases h with h | rfl
    · exact ih h
    · exact ⟨_, Nat.mod_lt _ (by omega), rfl⟩
  | case2 n hn =>
    rw [digits, dif_neg hn, List.mem_singleton] at h
    refine ⟨n, ?_, h⟩
    by_contra hge
    exact hn ⟨hlow, by omega⟩

theorem digits_ne_nil (radix n : Nat) : digits radix n ≠ [] := by
  rw [digits]
  split_ifs <;> simp

theorem digit_not_sign_nor_blank :
    ∀ d < 36, digit d ≠ '+' ∧ digit d ≠ '-' ∧ Text.isBlank (digit d) = false := by
  decide

theorem readChars_cons {radix bound : Nat} {c : Char} (hc : c ≠ '+') (cs : List Char) :
    readChars radix bound (c :: cs) = readDigits radix bound 0 (c :: cs) := by
  unfold readChars
  split <;> simp_all

theorem readChars_eq {radix bound : Nat} {cs : List Char} (hcs : cs ≠ []) (hplus : '+' ∉ cs) :
    readChars radix bound cs = readDigits radix bound 0 cs := by
  obtain ⟨c, cs, rfl⟩ := List.exists_cons_of_ne_nil hcs
  exact readChars_cons (fun heq => hplus (heq ▸ List.mem_cons_self)) cs

theorem not_sign_nor_blank_of_mem_digits {radix n : Nat} (hlow : 2 ≤ radix) (hhigh : radix ≤ 36)
    {c : Char} (h : c ∈ digits radix n) : c ≠ '+' ∧ c ≠ '-' ∧ Text.isBlank c = false := by
  obtain ⟨d, hd, rfl⟩ := mem_digits hlow n h
  exact digit_not_sign_nor_blank d (by omega)

theorem plus_notMem_digits {radix : Nat} (hlow : 2 ≤ radix) (hhigh : radix ≤ 36) (n : Nat) :
    '+' ∉ digits radix n := fun hmem =>
  (not_sign_nor_blank_of_mem_digits hlow hhigh hmem).1 rfl

/-- A number within the bound is read back from its digits. -/
theorem readChars_digits {radix bound n : Nat} (hlow : 2 ≤ radix) (hhigh : radix ≤ 36)
    (h : n ≤ bound) : readChars radix bound (digits radix n) = .ok n := by
  rw [readChars_eq (digits_ne_nil radix n) (plus_notMem_digits hlow hhigh n)]
  simpa [readDigits] using readDigits_digits hlow hhigh n [] h

/-- A number is read back from its digits if it is within the bound, and is too large if not. -/
theorem readChars_digits_eq_ite {radix bound : Nat} (hlow : 2 ≤ radix) (hhigh : radix ≤ 36)
    (n : Nat) : readChars radix bound (digits radix n)
      = if n ≤ bound then .ok n else .error .tooLarge := by
  split_ifs with h
  · exact readChars_digits hlow hhigh h
  · rw [readChars_eq (digits_ne_nil radix n) (plus_notMem_digits hlow hhigh n)]
    simpa using readDigits_digits_of_lt hlow hhigh n [] (Nat.lt_of_not_le h)

/-- A number has at most `k` digits exactly if it is below the `k`th power of the radix. -/
theorem length_digits_le_iff {radix : Nat} (hlow : 2 ≤ radix) (n : Nat) : ∀ k, 0 < k →
    ((digits radix n).length ≤ k ↔ n < radix ^ k) := by
  induction n using digits.induct radix with
  | case1 n hn ih =>
    intro k hk
    have hpos := List.length_pos_iff.2 (digits_ne_nil radix (n / radix))
    rw [digits, dif_pos hn, List.length_append, List.length_singleton]
    obtain ⟨_ | k, rfl⟩ := Nat.exists_eq_add_of_lt hk
    · simp only [Nat.zero_add, Nat.pow_one]
      omega
    · rw [Nat.zero_add, Nat.add_le_add_iff_right, ih (k + 1) (Nat.succ_pos k),
        Nat.div_lt_iff_lt_mul (by omega), ← Nat.pow_succ]
  | case2 n hn =>
    intro k hk
    have hlt : n < radix := by
      by_contra hge
      exact hn ⟨hlow, by omega⟩
    rw [digits, dif_neg hn, List.length_singleton]
    exact ⟨fun _ => Nat.lt_of_lt_of_le hlt (Nat.le_self_pow (by omega) radix), fun _ => hk⟩

theorem toList_signedHex (n : Int) :
    (signedHex n).toList = if n < 0 then '-' :: digits 16 n.natAbs else digits 16 n.natAbs := by
  unfold signedHex hex write
  split_ifs <;> simp

end Numeral

namespace Text

theorem dropWhile_isBlank_eq {cs : List Char} (h : ∀ c ∈ cs, isBlank c = false) :
    cs.dropWhile isBlank = cs := by
  cases cs with
  | nil => rfl
  | cons c cs => rw [List.dropWhile_cons_of_neg (by simp [h c List.mem_cons_self])]

/-- A text without blanks is left as it is. -/
theorem trim_eq_self {s : String} (h : ∀ c ∈ s.toList, isBlank c = false) : trim s = s := by
  have hreverse : ∀ c ∈ s.toList.reverse, isBlank c = false := fun c hc =>
    h c (List.mem_reverse.1 hc)
  rw [trim, trimChars, dropWhile_isBlank_eq h, dropWhile_isBlank_eq hreverse,
    List.reverse_reverse, String.ofList_toList]

end Text

namespace Finding

theorem readDigits_minus {cs : List Char} (h : cs.head? ≠ some '+') :
    readDigits ('-' :: cs)
      = (Numeral.readChars 16 (UInt64.size / 2) cs).toOption.map
          fun value : Nat => Int64.ofInt (-value) := by
  unfold readDigits
  split
  · rename_i heq
    cases heq
  · rename_i heq
    cases heq
    exact absurd rfl h
  · rename_i heq
    cases heq
    cases Numeral.readChars 16 (UInt64.size / 2) cs <;> rfl
  · rename_i hne
    exact absurd rfl (hne cs)

theorem readDigits_plain {cs : List Char} (hplus : cs.head? ≠ some '+')
    (hminus : cs.head? ≠ some '-') :
    readDigits cs
      = (Numeral.readChars 16 (UInt64.size / 2 - 1) cs).toOption.map
          fun value : Nat => Int64.ofInt value := by
  unfold readDigits
  split
  · exact absurd rfl hplus
  · exact absurd rfl hminus
  · exact absurd rfl hminus
  · cases Numeral.readChars 16 (UInt64.size / 2 - 1) cs <;> rfl

/-- The stored text of a distance is read back as the distance. -/
theorem readValue_writeValue (value : Int64) : readValue (writeValue value) = .ok value := by
  have hsize : UInt64.size = 18446744073709551616 := rfl
  have hlow := value.le_toInt
  have hhigh := value.toInt_lt
  have hclass : ∀ c ∈ Numeral.digits 16 value.toInt.natAbs,
      c ≠ '+' ∧ c ≠ '-' ∧ Text.isBlank c = false := fun c hc =>
    Numeral.not_sign_nor_blank_of_mem_digits (by omega) (by omega) hc
  have hplus : (Numeral.digits 16 value.toInt.natAbs).head? ≠ some '+' := fun h =>
    (hclass _ (List.mem_of_mem_head? h)).1 rfl
  have hminus : (Numeral.digits 16 value.toInt.natAbs).head? ≠ some '-' := fun h =>
    (hclass _ (List.mem_of_mem_head? h)).2.1 rfl
  have htrim : Text.trim (writeValue value) = writeValue value := by
    refine Text.trim_eq_self fun c hc => ?_
    rw [writeValue, Numeral.toList_signedHex] at hc
    split_ifs at hc
    · rcases List.mem_cons.1 hc with rfl | hc
      · decide
      · exact (hclass c hc).2.2
    · exact (hclass c hc).2.2
  rw [readValue, htrim, writeValue, Numeral.toList_signedHex]
  split_ifs with hneg
  · rw [readDigits_minus hplus, Numeral.readChars_digits (by omega) (by omega) (by omega)]
    simp only [Except.toOption, Option.map_some]
    rw [show -(value.toInt.natAbs : Int) = value.toInt by omega, Int64.ofInt_toInt]
  · rw [readDigits_plain hplus hminus,
      Numeral.readChars_digits (by omega) (by omega) (by omega)]
    simp only [Except.toOption, Option.map_some]
    rw [show (value.toInt.natAbs : Int) = value.toInt by omega, Int64.ofInt_toInt]

end Finding

end Landmark
