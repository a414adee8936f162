import Mathlib.Data.List.Basic
import Mathlib.Data.List.Induction
import Mathlib.Data.Nat.Digits.Defs
import Landmark.Proofs.Numerals

/-!
# Hexadecimal numerals

A hexadecimal numeral is one or more digits, letters in either case, and stands for the number that
has them as its digits in base sixteen, leading zeros or not (`hexValue`). Reading accepts exactly
the numerals up to the bound, with one plus sign in front or none (`readChars_eq_ok_iff`). Of all
the numerals of a number, writing gives the one in upper case without leading zeros
(`isCanonicalHex_iff`).
-/

namespace Landmark

namespace Numeral

/-- Whether a character is a hexadecimal digit, a letter counting in either case. -/
def IsHexDigit (c : Char) : Prop :=
  c ∈ "0123456789abcdefABCDEF".toList

/-- The value of a hexadecimal digit. -/
def hexDigitValue (c : Char) : Nat :=
  "0123456789abcdef".toList.idxOf c.toLower

/-- Whether a text is one or more hexadecimal digits. -/
def IsHex (cs : List Char) : Prop :=
  cs ≠ [] ∧ ∀ c ∈ cs, IsHexDigit c

/-- The number that hexadecimal digits stand for, the most significant digit first. -/
def hexValue (cs : List Char) : Nat :=
  Nat.ofDigits 16 (cs.reverse.map hexDigitValue)

instance : DecidablePred IsHexDigit :=
  fun c => inferInstanceAs (Decidable (c ∈ "0123456789abcdefABCDEF".toList))

/-! ## Digits -/

theorem IsHexDigit.lt_128 {c : Char} (h : IsHexDigit c) : c.toNat < 128 := by
  have hall : "0123456789abcdefABCDEF".toList.all (·.toNat < 128) = true := by decide
  exact of_decide_eq_true (List.all_eq_true.1 hall c h)

theorem IsHexDigit.value_lt {c : Char} (h : IsHexDigit c) : hexDigitValue c < 16 := by
  have hall : "0123456789abcdefABCDEF".toList.all (hexDigitValue · < 16) = true := by
    decide +kernel
  exact of_decide_eq_true (List.all_eq_true.1 hall c h)

theorem digitIn_ofNat : ∀ n < 128, digitIn 16 (Char.ofNat n)
    = if IsHexDigit (Char.ofNat n) then some (hexDigitValue (Char.ofNat n)) else none := by
  decide +kernel

theorem digitValue_eq_none_of_le {c : Char} (h : 128 ≤ c.toNat) : digitValue c = none := by
  have hbeyond (d : Char) (hd : d.toNat < 128) : ¬ c ≤ d := fun hle => by
    have : c.toNat ≤ d.toNat := UInt32.le_iff_toNat_le.1 hle
    omega
  simp [digitValue, hbeyond '9' (by decide), hbeyond 'z' (by decide), hbeyond 'Z' (by decide)]

/-- A digit in radix sixteen is a hexadecimal digit, with the same value. -/
theorem digitIn_eq_ite (c : Char) :
    digitIn 16 c = if IsHexDigit c then some (hexDigitValue c) else none := by
  rcases Nat.lt_or_ge c.toNat 128 with hascii | hbeyond
  · rw [← Char.ofNat_toNat c]
    exact digitIn_ofNat c.toNat hascii
  · have hno : ¬ IsHexDigit c := fun hc => by
      have := hc.lt_128
      omega
    rw [if_neg hno, digitIn, digitValue_eq_none_of_le hbeyond, Option.filter_none]

/-! ## Numerals -/

theorem hexValue_nil : hexValue [] = 0 := rfl

theorem hexValue_append_singleton (cs : List Char) (c : Char) :
    hexValue (cs ++ [c]) = hexValue cs * 16 + hexDigitValue c := by
  simp [hexValue, Nat.ofDigits_cons]
  omega

theorem hexValue_cons (c : Char) (cs : List Char) :
    hexValue (c :: cs) = hexDigitValue c * 16 ^ cs.length + hexValue cs := by
  simp [hexValue, Nat.ofDigits_append]
  ring

theorem readDigits_cons (bound value : Nat) (c : Char) (cs : List Char) :
    readDigits 16 bound value (c :: cs)
      = if IsHexDigit c then
          if value * 16 + hexDigitValue c ≤ bound then
            readDigits 16 bound (value * 16 + hexDigitValue c) cs
          else .error .tooLarge
        else .error .invalidDigit := by
  rw [readDigits, digitIn_eq_ite]
  by_cases hdigit : IsHexDigit c
  · simp only [if_pos hdigit]
  · simp only [if_neg hdigit]

/-- A number is below the power of sixteen for the number of its digits. -/
theorem hexValue_lt : ∀ {cs : List Char}, (∀ c ∈ cs, IsHexDigit c) → hexValue cs < 16 ^ cs.length
  | [], _ => by simp [hexValue_nil]
  | c :: cs, h => by
    have hfront := (h c List.mem_cons_self).value_lt
    have hrest := hexValue_lt fun d hd => h d (List.mem_cons_of_mem c hd)
    rw [hexValue_cons, List.length_cons]
    calc hexDigitValue c * 16 ^ cs.length + hexValue cs
        < (hexDigitValue c + 1) * 16 ^ cs.length := by rw [Nat.succ_mul]; omega
      _ ≤ 16 * 16 ^ cs.length := Nat.mul_le_mul_right _ hfront
      _ = 16 ^ (cs.length + 1) := (Nat.pow_succ').symm

/-- Digits are read if the number they come to, together with what is in front of them, stays within
the bound. -/
theorem readDigits_eq_ok_iff {bound n : Nat} : ∀ (cs : List Char) (value : Nat),
    readDigits 16 bound value cs = .ok n ↔
      (∀ c ∈ cs, IsHexDigit c) ∧ n = value * 16 ^ cs.length + hexValue cs ∧ (cs = [] ∨ n ≤ bound)
  | [], value => by
    simp [readDigits, hexValue_nil, eq_comm]
  | c :: cs, value => by
    have ih := @readDigits_eq_ok_iff bound n cs (value * 16 + hexDigitValue c)
    have hshift : value * 16 ^ (c :: cs).length + hexValue (c :: cs)
        = (value * 16 + hexDigitValue c) * 16 ^ cs.length + hexValue cs := by
      rw [hexValue_cons, List.length_cons]
      ring
    -- what is read so far never exceeds the number, so the bound may be checked at the end
    have hfront := Nat.le_mul_of_pos_right (value * 16 + hexDigitValue c)
      (Nat.pow_pos (n := cs.length) (by omega : 0 < 16))
    rw [readDigits_cons, List.forall_mem_cons, hshift]
    split_ifs with hdigit hbound
    · rw [ih]
      rcases cs with _ | ⟨d, cs⟩
      · simp only [List.length_nil, hexValue_nil]
        grind
      · simp [hdigit]
    · simp only [false_iff]
      rintro ⟨-, hn, h | h⟩
      · cases h
      · omega
    · simp [hdigit]

theorem not_isHexDigit_plus : ¬ IsHexDigit '+' := by
  decide

theorem not_isHexDigit_minus : ¬ IsHexDigit '-' := by
  decide

theorem IsHex.head?_ne {ds : List Char} (h : IsHex ds) {c : Char} (hc : ¬ IsHexDigit c) :
    ds.head? ≠ some c :=
  fun hhead => hc (h.2 c (List.mem_of_mem_head? hhead))

/-- Digits without a sign in front are a numeral, which is read if it is within the bound. -/
theorem readDigits_zero_eq_ok_iff {bound n : Nat} {cs : List Char} (hcs : cs ≠ []) :
    readDigits 16 bound 0 cs = .ok n ↔ IsHex cs ∧ n = hexValue cs ∧ n ≤ bound := by
  simp [readDigits_eq_ok_iff, IsHex, hcs]

/-- A numeral without a sign in front is read if it is within the bound. -/
theorem readChars_eq_ok_iff_of_unsigned {bound n : Nat} {cs : List Char}
    (hplus : cs.head? ≠ some '+') :
    readChars 16 bound cs = .ok n ↔ IsHex cs ∧ n = hexValue cs ∧ n ≤ bound := by
  rcases cs with _ | ⟨c, cs⟩
  · simp [readChars, IsHex]
  · rw [readChars_cons (by simpa using hplus), readDigits_zero_eq_ok_iff (List.cons_ne_nil c cs)]

/-- A numeral with a plus sign in front or none is read if it is within the bound. -/
theorem readChars_eq_ok_iff {bound n : Nat} {cs : List Char} :
    readChars 16 bound cs = .ok n ↔
      ∃ plus ∈ [[], ['+']], ∃ ds, cs = plus ++ ds ∧ IsHex ds ∧ n = hexValue ds ∧ n ≤ bound := by
  constructor
  · intro h
    by_cases hplus : cs.head? = some '+'
    · obtain ⟨ds, rfl⟩ := List.head?_eq_some_iff.1 hplus
      rcases ds with _ | ⟨d, ds⟩
      · cases h
      · exact ⟨['+'], by simp, d :: ds, rfl,
          (readDigits_zero_eq_ok_iff (List.cons_ne_nil d ds)).1 h⟩
    · exact ⟨[], by simp, cs, rfl, (readChars_eq_ok_iff_of_unsigned hplus).1 h⟩
  · rintro ⟨plus, hplus, ds, rfl, hread⟩
    obtain ⟨d, ds, rfl⟩ := List.exists_cons_of_ne_nil hread.1.1
    rcases List.mem_pair.1 hplus with rfl | rfl
    · exact (readChars_eq_ok_iff_of_unsigned (hread.1.head?_ne not_isHexDigit_plus)).2 hread
    · exact (readDigits_zero_eq_ok_iff (List.cons_ne_nil d ds)).2 hread

/-! ## Canonical numerals -/

/-- Whether a text is hexadecimal digits in upper case, without a zero in front of others. -/
structure IsCanonicalHex (cs : List Char) : Prop where
  ne_nil : cs ≠ []
  upper : ∀ c ∈ cs, c ∈ "0123456789ABCDEF".toList
  leading : cs.head? = some '0' → cs = ['0']

theorem digit_upper : ∀ d < 16, digit d ∈ "0123456789ABCDEF".toList := by
  decide

theorem digit_hexDigitValue {c : Char} (h : c ∈ "0123456789ABCDEF".toList) :
    hexDigitValue c < 16 ∧ digit (hexDigitValue c) = c := by
  have hall : "0123456789ABCDEF".toList.all
      (fun c => hexDigitValue c < 16 ∧ digit (hexDigitValue c) = c) = true := by
    decide +kernel
  exact of_decide_eq_true (List.all_eq_true.1 hall c h)

theorem digits_of_lt {n : Nat} (h : n < 16) : digits 16 n = [digit n] := by
  rw [digits, dif_neg (by omega)]

theorem digits_of_le {n : Nat} (h : 16 ≤ n) :
    digits 16 n = digits 16 (n / 16) ++ [digit (n % 16)] := by
  rw [digits, dif_pos ⟨by omega, h⟩]

/-- The digits of a number stand for the number. -/
theorem hexValue_digits (n : Nat) : hexValue (digits 16 n) = n := by
  have hplus : (digits 16 n).head? ≠ some '+' := fun h =>
    plus_notMem_digits (by omega) (by omega) n (List.mem_of_mem_head? h)
  have hread : readChars 16 n (digits 16 n) = .ok n := readChars_digits (by omega) (by omega) le_rfl
  exact ((readChars_eq_ok_iff_of_unsigned hplus).1 hread).2.1.symm

theorem isCanonicalHex_digits (n : Nat) : IsCanonicalHex (digits 16 n) where
  ne_nil := digits_ne_nil 16 n
  upper c hc := by
    obtain ⟨d, hd, rfl⟩ := mem_digits (by omega) n hc
    exact digit_upper d hd
  leading := by
    induction n using Nat.strongRecOn with
    | ind n ih =>
      rcases Nat.lt_or_ge n 16 with hlt | hle
      · simp [digits_of_lt hlt]
      · rw [digits_of_le hle, List.head?_append_of_ne_nil _ (digits_ne_nil 16 _)]
        intro hzero
        -- the digits in front are those of a number that is not zero
        have hfront := congrArg hexValue (ih (n / 16) (by omega) hzero)
        rw [hexValue_digits] at hfront
        have : hexValue ['0'] = 0 := by decide
        omega

/-- A canonical numeral is what writing makes of its value. -/
theorem IsCanonicalHex.eq_digits {cs : List Char} (h : IsCanonicalHex cs) :
    cs = digits 16 (hexValue cs) := by
  induction cs using List.reverseRecOn with
  | nil => exact absurd rfl h.ne_nil
  | append_singleton front c ih =>
    obtain ⟨hlt, hdigit⟩ := digit_hexDigitValue (h.upper c (by simp))
    rw [hexValue_append_singleton]
    by_cases hfront : front = []
    · subst hfront
      rw [hexValue_nil, Nat.zero_mul, Nat.zero_add, digits_of_lt hlt, hdigit, List.nil_append]
    · have hleading : front.head? ≠ some '0' := fun hzero => by
        have hall := h.leading (by rwa [List.head?_append_of_ne_nil _ hfront])
        simp [List.append_eq_singleton_iff, hfront] at hall
      have heq := ih ⟨hfront, fun d hd => h.upper d (List.mem_append_left _ hd),
        fun hzero => absurd hzero hleading⟩
      have hpos : 0 < hexValue front := by
        by_contra hzero
        rw [Nat.eq_zero_of_not_pos hzero] at heq
        exact hleading (heq ▸ by decide +kernel)
      rw [digits_of_le (by omega), show (hexValue front * 16 + hexDigitValue c) / 16
        = hexValue front by omega, show (hexValue front * 16 + hexDigitValue c) % 16
        = hexDigitValue c by omega, hdigit, ← heq]

/-- A number has one canonical numeral, which is the one that is written. -/
theorem isCanonicalHex_iff {cs : List Char} {n : Nat} :
    IsCanonicalHex cs ∧ hexValue cs = n ↔ cs = digits 16 n := by
  constructor
  · rintro ⟨h, rfl⟩
    exact h.eq_digits
  · rintro rfl
    exact ⟨isCanonicalHex_digits n, hexValue_digits n⟩

end Numeral

end Landmark
