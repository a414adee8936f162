import Landmark.Proofs.HexNumerals
import Landmark.Proofs.StoredDocument

/-!
# Stored distances

The distance of a finding is stored as a signed hexadecimal numeral: the digits of its magnitude,
with a minus sign in front or no sign at all (`IsSignedHex`). Reading takes every such numeral whose
value has 64 bits, the lowest one too, in either case and with leading zeros or `-0`
(`readDigits_eq_some_iff`); writing gives the one in upper case that has neither
(`isCanonicalSignedHex_iff`). So a distance survives being stored, and a text that is read is
written back as the canonical numeral of its number (`distances_as_text`).
-/

namespace Landmark

namespace Numeral

/-- The signed hexadecimal numerals, with what they stand for. -/
inductive IsSignedHex : List Char → Int → Prop
  | plain {ds : List Char} : IsHex ds → IsSignedHex ds (hexValue ds)
  | negative {ds : List Char} : IsHex ds → IsSignedHex ('-' :: ds) (-hexValue ds)

/-- The signed numerals in upper case and without leading zeros. Zero has no sign. -/
inductive IsCanonicalSignedHex : List Char → Int → Prop
  | plain {ds : List Char} : IsCanonicalHex ds → IsCanonicalSignedHex ds (hexValue ds)
  | negative {ds : List Char} : IsCanonicalHex ds → ds ≠ ['0'] →
      IsCanonicalSignedHex ('-' :: ds) (-hexValue ds)

theorem isSignedHex_minus {ds : List Char} {n : Int} :
    IsSignedHex ('-' :: ds) n ↔ IsHex ds ∧ n = -hexValue ds := by
  constructor
  · rintro (h | h)
    · exact absurd rfl (h.head?_ne not_isHexDigit_minus)
    · exact ⟨h, rfl⟩
  · rintro ⟨h, rfl⟩
    exact .negative h

theorem isSignedHex_plain {ds : List Char} (hminus : ds.head? ≠ some '-') {n : Int} :
    IsSignedHex ds n ↔ IsHex ds ∧ n = hexValue ds := by
  constructor
  · rintro (h | h)
    · exact ⟨h, rfl⟩
    · exact absurd rfl hminus
  · rintro ⟨h, rfl⟩
    exact .plain h

theorem IsCanonicalHex.hexValue_pos {ds : List Char} (h : IsCanonicalHex ds) (hzero : ds ≠ ['0']) :
    0 < hexValue ds := by
  by_contra hpos
  have heq := h.eq_digits
  rw [Nat.eq_zero_of_not_pos hpos] at heq
  exact hzero (heq.trans (by decide +kernel))

/-- A signed number has one canonical numeral, which is the one that is written. -/
theorem isCanonicalSignedHex_iff {cs : List Char} {n : Int} :
    IsCanonicalSignedHex cs n ↔ cs = (signedHex n).toList := by
  rw [toList_signedHex]
  constructor
  · rintro (h | ⟨h, hzero⟩)
    · rw [if_neg (by omega), Int.natAbs_natCast]
      exact h.eq_digits
    · have hpos := h.hexValue_pos hzero
      rw [if_pos (by omega), Int.natAbs_neg, Int.natAbs_natCast, ← h.eq_digits]
  · rintro rfl
    have hcanonical := isCanonicalHex_digits n.natAbs
    have hvalue := hexValue_digits n.natAbs
    split_ifs with hneg
    · have hform := IsCanonicalSignedHex.negative hcanonical fun hzero => by
        rw [hzero] at hvalue
        have : hexValue ['0'] = 0 := by decide
        omega
      rwa [hvalue, Int.ofNat_natAbs_of_nonpos (by omega), Int.neg_neg] at hform
    · have hform := IsCanonicalSignedHex.plain hcanonical
      rwa [hvalue, Int.natAbs_of_nonneg (by omega)] at hform

end Numeral

namespace Finding

open Numeral (IsHex IsSignedHex IsCanonicalSignedHex hexValue readChars not_isHexDigit_plus
  isSignedHex_minus isSignedHex_plain isCanonicalSignedHex_iff)

/-- A number of 64 bits is the value of just one distance. -/
theorem eq_ofInt_iff {value : Int64} {n : Int} :
    (-2 ^ 63 ≤ n ∧ n < 2 ^ 63) ∧ value = Int64.ofInt n ↔ value.toInt = n := by
  constructor
  · rintro ⟨⟨hlow, hhigh⟩, rfl⟩
    exact Int64.toInt_ofInt_of_le hlow hhigh
  · rintro rfl
    exact ⟨⟨value.le_toInt, value.toInt_lt⟩, (Int64.ofInt_toInt value).symm⟩

/-- Digits are read under a sign if their number has 64 bits under that sign, given that the bound
of their magnitude says so. -/
theorem map_readChars_eq_some_iff {bound : Nat} (sign : Int → Int)
    (hbound : ∀ n : Nat, n ≤ bound ↔ -2 ^ 63 ≤ sign n ∧ sign n < 2 ^ 63) {ds : List Char}
    (hplus : ds.head? ≠ some '+') {value : Int64} :
    (readChars 16 bound ds).toOption.map (fun n : Nat => Int64.ofInt (sign n)) = some value
      ↔ IsHex ds ∧ value.toInt = sign (hexValue ds) := by
  have hread (n : Nat) := @Numeral.readChars_eq_ok_iff_of_unsigned bound n ds hplus
  rw [← eq_ofInt_iff, ← hbound]
  rcases hresult : readChars 16 bound ds with fault | n
  · refine iff_of_false nofun ?_
    rintro ⟨hds, hle, -⟩
    rw [(hread _).2 ⟨hds, rfl, hle⟩] at hresult
    cases hresult
  · obtain ⟨hds, rfl, hle⟩ := (hread n).1 hresult
    simp only [Except.toOption, Option.map_some, Option.some.injEq]
    exact ⟨fun h => ⟨hds, hle, h.symm⟩, fun h => h.2.2.symm⟩

/-- The text of a distance is a signed numeral, and the one sign it may have is a minus. -/
theorem readDigits_eq_some_iff {cs : List Char} {value : Int64} :
    readDigits cs = some value ↔ IsSignedHex cs value.toInt := by
  have hhalf : UInt64.size / 2 = 2 ^ 63 := rfl
  have hno (rest : List Char) : ¬ IsHex ('+' :: rest) := fun h =>
    h.head?_ne not_isHexDigit_plus rfl
  by_cases hminus : cs.head? = some '-'
  · obtain ⟨ds, rfl⟩ := List.head?_eq_some_iff.1 hminus
    rw [isSignedHex_minus]
    by_cases hplus : ds.head? = some '+'
    · obtain ⟨rest, rfl⟩ := List.head?_eq_some_iff.1 hplus
      exact iff_of_false nofun fun h => hno rest h.1
    · rw [readDigits_minus hplus, hhalf]
      exact map_readChars_eq_some_iff (fun n => -n) (fun n => by omega) hplus
  · rw [isSignedHex_plain hminus]
    by_cases hplus : cs.head? = some '+'
    · obtain ⟨rest, rfl⟩ := List.head?_eq_some_iff.1 hplus
      exact iff_of_false nofun fun h => hno rest h.1
    · rw [readDigits_plain hplus hminus, hhalf]
      exact map_readChars_eq_some_iff (fun n => n) (fun n => by omega) hplus

theorem readValue_eq_ok_iff {s : String} {value : Int64} :
    readValue s = .ok value ↔ IsSignedHex (Text.trim s).toList value.toInt := by
  rw [← readDigits_eq_some_iff, readValue]
  cases readDigits (Text.trim s).toList <;> simp

/-- A text that is no distance is reported as it was given. -/
theorem readValue_eq_error_iff {s : String} {fault : DocumentFault} :
    readValue s = .error fault ↔ fault = .badCachedValue s ∧ ∀ value, readValue s ≠ .ok value := by
  unfold readValue
  cases readDigits (Text.trim s).toList <;> simp [eq_comm]

/-- A distance is written as its one canonical numeral, which is read back as the distance. A text
is read exactly if it is, but for blanks at its ends, a signed numeral of 64 bits, and its number is
then written as the canonical one; any other text is refused, alone and as a field of a finding. -/
theorem distances_as_text :
    (∀ value : Int64, readValue (writeValue value) = .ok value
      ∧ ∀ cs, IsCanonicalSignedHex cs value.toInt ↔ cs = (writeValue value).toList)
    ∧ ∀ s : String,
      let Reads (n : Int) := IsSignedHex (Text.trim s).toList n ∧ -2 ^ 63 ≤ n ∧ n ≤ 2 ^ 63 - 1
      (∀ n, Reads n ↔ ∃ value, readValue s = .ok value ∧ value.toInt = n
          ∧ IsCanonicalSignedHex (writeValue value).toList n)
        ∧ ((∃ value, readValue s = .ok value) ↔ ∃ n, Reads n)
        ∧ (readValue s = .error (.badCachedValue s) ↔ ∀ n, ¬ Reads n)
        ∧ ∀ build, schema.read (.object [Json.field "build" (.text build),
            Json.field "value" (.text s)]) = (readValue s).map (⟨build, ·⟩) := by
  have hcanonical (value : Int64) (cs : List Char) :
      IsCanonicalSignedHex cs value.toInt ↔ cs = (writeValue value).toList :=
    isCanonicalSignedHex_iff
  refine ⟨fun value => ⟨readValue_writeValue value, hcanonical value⟩, fun s => ?_⟩
  intro Reads
  have hreads (n : Int) : Reads n ↔ ∃ value, readValue s = .ok value ∧ value.toInt = n := by
    constructor
    · rintro ⟨hform, hlow, hhigh⟩
      have hvalue : (Int64.ofInt n).toInt = n := Int64.toInt_ofInt_of_le hlow (by omega)
      exact ⟨Int64.ofInt n, readValue_eq_ok_iff.2 (by rwa [hvalue]), hvalue⟩
    · rintro ⟨value, hread, rfl⟩
      exact ⟨readValue_eq_ok_iff.1 hread, value.le_toInt, Int.le_sub_one_of_lt value.toInt_lt⟩
  have hexists : (∃ value, readValue s = .ok value) ↔ ∃ n, Reads n := by
    simp only [hreads]
    exact ⟨fun ⟨value, h⟩ => ⟨_, value, h, rfl⟩, fun ⟨_, value, h, _⟩ => ⟨value, h⟩⟩
  refine ⟨fun n => ?_, hexists, ?_, fun build => read_texts build s⟩
  · rw [hreads]
    constructor
    · rintro ⟨value, hread, rfl⟩
      exact ⟨value, hread, rfl, (hcanonical value _).2 rfl⟩
    · rintro ⟨value, hread, hvalue, -⟩
      exact ⟨value, hread, hvalue⟩
  · rw [readValue_eq_error_iff, ← not_exists, hexists, not_exists]
    exact and_iff_right rfl

end Finding

end Landmark
