import Landmark.Proofs.HexNumerals
import Landmark.Proofs.OperandText

/-!
# The written forms of operands

Which texts are read as operands, and as what, is written down here as a grammar of the trimmed
text: an address may have `0x` in front of its digits and a plus sign between the two (`IsTarget`),
an offset may have a minus sign in front of both, and eight digits without one are a 32-bit two's
complement number (`IsOffset`). Reading accepts what the grammar derives, with its value, and
nothing else (`addresses_as_text`, `offsets_as_text`).
-/

namespace Landmark

namespace Operand

open Numeral (IsHex IsHexDigit hexValue readChars IsCanonicalHex)

/-- What may stand in front of the digits to tell their radix. -/
def radixMarks : List (List Char) :=
  [[], ['0', 'x'], ['0', 'X']]

/-- The texts that are read as an address, trimmed, with the address. -/
inductive IsTarget : List Char → Nat → Prop
  | empty : IsTarget [] 0
  | numeral {mark plus ds : List Char} : mark ∈ radixMarks → plus ∈ [[], ['+']] → IsHex ds →
      hexValue ds < 2 ^ 64 → IsTarget (mark ++ plus ++ ds) (hexValue ds)

/-- The texts that are read as an offset, trimmed, with the offset. -/
inductive IsOffset : List Char → Int → Prop
  | empty : IsOffset [] 0
  | negative {mark ds : List Char} : mark ∈ radixMarks → IsHex ds → hexValue ds < 2 ^ 63 →
      IsOffset ('-' :: mark ++ ds) (-hexValue ds)
  /-- Eight digits are a 32-bit two's complement number. -/
  | word {mark ds : List Char} : mark ∈ radixMarks → IsHex ds → ds.length = 8 →
      IsOffset (mark ++ ds) (BitVec.ofNat 32 (hexValue ds)).toInt
  | plain {mark ds : List Char} : mark ∈ radixMarks → IsHex ds → ds.length ≠ 8 →
      hexValue ds < 2 ^ 63 → IsOffset (mark ++ ds) (hexValue ds)

/-! ## Results -/

section Results

variable {ε ε' α β : Type} {result : Except ε α}

theorem map_eq_ok_iff {f : α → β} {b : β} :
    result.map f = .ok b ↔ ∃ a, result = .ok a ∧ f a = b := by
  cases result <;> simp [Except.map]

theorem mapError_eq_ok_iff {f : ε → ε'} {a : α} : result.mapError f = .ok a ↔ result = .ok a := by
  cases result <;> simp [Except.mapError]

/-- A fault is reported exactly if there is no value. -/
theorem exists_mapError_eq_error_iff {f : ε → ε'} :
    (∃ fault, result.mapError f = .error (f fault)) ↔ ∀ a, result ≠ .ok a := by
  cases result with
  | error fault => exact iff_of_true ⟨fault, rfl⟩ fun _ h => by cases h
  | ok a => simp [Except.mapError]

end Results

/-! ## Marks and signs -/

theorem mark_not_isHexDigit : ¬ IsHexDigit 'x' ∧ ¬ IsHexDigit 'X' := by
  decide

/-- Every text is a mark and what is left when the mark is dropped. -/
theorem exists_mark (cs : List Char) : ∃ mark ∈ radixMarks, cs = mark ++ dropRadixMark cs := by
  unfold dropRadixMark radixMarks
  split
  · exact ⟨['0', 'x'], by simp, rfl⟩
  · exact ⟨['0', 'X'], by simp, rfl⟩
  · exact ⟨[], by simp, rfl⟩

/-- A mark in front of a numeral is dropped. -/
theorem dropRadixMark_append {mark plus ds : List Char} (hmark : mark ∈ radixMarks)
    (hplus : plus ∈ [[], ['+']]) (hds : IsHex ds) :
    dropRadixMark (mark ++ (plus ++ ds)) = plus ++ ds := by
  simp only [radixMarks, List.mem_cons, List.not_mem_nil, or_false] at hmark hplus
  have hno (c : Char) (hc : ¬ IsHexDigit c) (hsign : c ≠ '+') : c ∉ plus ++ ds := by
    rcases hplus with rfl | rfl
    · exact fun h => hc (hds.2 c h)
    · exact fun h => (List.mem_cons.1 h).elim hsign fun h => hc (hds.2 c h)
  rcases hmark with rfl | rfl | rfl
  · obtain ⟨hlower, hupper⟩ := mark_not_isHexDigit
    exact dropRadixMark_eq_self ⟨hno 'x' hlower (by decide), hno 'X' hupper (by decide)⟩
  · rfl
  · rfl

theorem hasSign_iff {cs : List Char} :
    hasSign cs = true ↔ cs.head? = some '+' ∨ cs.head? = some '-' := by
  unfold hasSign
  split <;> simp_all [List.head?_eq_some_iff]

theorem hasSign_of_isHex {ds : List Char} (h : IsHex ds) : hasSign ds = false := by
  rw [← Bool.not_eq_true, hasSign_iff]
  rintro (hsign | hsign)
  · exact h.head?_ne Numeral.not_isHexDigit_plus hsign
  · exact h.head?_ne Numeral.not_isHexDigit_minus hsign

/-- Digits with a mark in front do not begin with a minus sign. -/
theorem head?_mark_append_ne {mark ds : List Char} (hmark : mark ∈ radixMarks) (hds : IsHex ds) :
    (mark ++ ds).head? ≠ some '-' := by
  simp only [radixMarks, List.mem_cons, List.not_mem_nil, or_false] at hmark
  rcases hmark with rfl | rfl | rfl
  · exact hds.head?_ne Numeral.not_isHexDigit_minus
  · simp
  · simp

/-! ## Addresses -/

theorem readTarget_eq (s : String) :
    Operand.readTarget s
      = if (Text.trim s).toList = [] then .ok 0
        else ((readChars 16 (2 ^ 64 - 1) (dropRadixMark (Text.trim s).toList)).map
          UInt64.ofNat).mapError (.badTarget (Text.trim s)) := by
  have hsize : UInt64.size = 2 ^ 64 := rfl
  simp only [Operand.readTarget, String.toList_eq_nil_iff, hsize]
  cases readChars 16 (2 ^ 64 - 1) (dropRadixMark (Text.trim s).toList) <;> rfl

/-- A text is read as an address exactly if it has the form of one. -/
theorem readTarget_eq_ok_iff {s : String} {address : UInt64} :
    Operand.readTarget s = .ok address ↔ IsTarget (Text.trim s).toList address.toNat := by
  rw [readTarget_eq]
  generalize Text.trim s = text
  constructor
  · intro h
    split_ifs at h with hempty
    · cases h
      rw [hempty]
      exact .empty
    · obtain ⟨value, hread, rfl⟩ := map_eq_ok_iff.1 (mapError_eq_ok_iff.1 h)
      obtain ⟨mark, hmark, htext⟩ := exists_mark text.toList
      obtain ⟨plus, hplus, ds, hdrop, hds, rfl, hbound⟩ := Numeral.readChars_eq_ok_iff.1 hread
      rw [htext, hdrop, UInt64.toNat_ofNat', Nat.mod_eq_of_lt (by omega), ← List.append_assoc]
      exact .numeral hmark hplus hds (by omega)
  · generalize htext : text.toList = cs, hvalue : address.toNat = n
    intro h
    have haddress : address = UInt64.ofNat n := by rw [← hvalue, UInt64.ofNat_toNat]
    rw [haddress]
    cases h with
    | empty => rw [if_pos rfl]; rfl
    | @numeral mark plus ds hmark hplus hds hlt =>
      have hne : mark ++ plus ++ ds ≠ [] := by simp [hds.1]
      have hread : readChars 16 (2 ^ 64 - 1) (plus ++ ds) = .ok (hexValue ds) :=
        Numeral.readChars_eq_ok_iff.2 ⟨plus, hplus, ds, rfl, hds, rfl, by omega⟩
      rw [if_neg hne, List.append_assoc, dropRadixMark_append hmark hplus hds, hread]
      rfl

theorem IsTarget.lt {cs : List Char} {n : Nat} (h : IsTarget cs n) : n < 2 ^ 64 := by
  cases h with
  | empty => omega
  | numeral _ _ _ hlt => exact hlt

/-- An address is written as its one canonical numeral, which is read back as the address; a text is
read as an address exactly if it has the form of one, and refused as an operand if it has not. -/
theorem addresses_as_text :
    (∀ address : UInt64,
      (∀ cs, IsCanonicalHex cs ∧ hexValue cs = address.toNat ↔ cs = (writeAddress address).toList)
        ∧ Landmark.readTarget (writeAddress address) = .ok address)
      ∧ ∀ s : String,
        (∀ address : UInt64,
          Landmark.readTarget s = .ok address ↔ IsTarget (Text.trim s).toList address.toNat)
        ∧ ((∃ address, Landmark.readTarget s = .ok address)
          ↔ ∃ n, IsTarget (Text.trim s).toList n)
        ∧ ((∃ fault, Landmark.readTarget s = .error (.malformedOperand fault))
          ↔ ∀ n, ¬ IsTarget (Text.trim s).toList n) := by
  refine ⟨fun address => ⟨fun cs => ?_, ?_⟩, fun s => ?_⟩
  · rw [toList_writeAddress]
    exact Numeral.isCanonicalHex_iff
  · rw [Landmark.readTarget, readTarget_writeAddress]
    rfl
  have hiff (address : UInt64) :
      Landmark.readTarget s = .ok address ↔ IsTarget (Text.trim s).toList address.toNat := by
    rw [← readTarget_eq_ok_iff, Landmark.readTarget, mapError_eq_ok_iff]
  have hexists : (∃ address, Landmark.readTarget s = .ok address)
      ↔ ∃ n, IsTarget (Text.trim s).toList n := by
    constructor
    · rintro ⟨address, h⟩
      exact ⟨_, (hiff address).1 h⟩
    · rintro ⟨n, h⟩
      refine ⟨UInt64.ofNat n, (hiff _).2 ?_⟩
      rwa [UInt64.toNat_ofNat', Nat.mod_eq_of_lt h.lt]
  refine ⟨hiff, hexists, ?_⟩
  rw [← not_exists, ← hexists, Landmark.readTarget, exists_mapError_eq_error_iff]
  simp only [mapError_eq_ok_iff, not_exists, ne_eq]

/-! ## Offsets -/

/-- What has no sign is read if it is a numeral within the bound. -/
theorem readChars_eq_ok_iff_of_not_hasSign {bound n : Nat} {ds : List Char}
    (h : hasSign ds = false) :
    readChars 16 bound ds = .ok n ↔ IsHex ds ∧ n = hexValue ds ∧ n ≤ bound := by
  refine Numeral.readChars_eq_ok_iff_of_unsigned fun hplus => ?_
  rw [hasSign_iff.2 (.inl hplus)] at h
  cases h

theorem readPlain_eq (ds : List Char) :
    readPlain ds
      = if ds.length = 8 then
          (readChars 16 (2 ^ 32 - 1) ds).map fun n : Nat => (n : Int).bmod (2 ^ 32)
        else (readChars 16 (2 ^ 63 - 1) ds).map Int.ofNat := by
  have hword : UInt32.size = 2 ^ 32 := rfl
  have hhalf : UInt64.size / 2 = 2 ^ 63 := rfl
  unfold readPlain
  rw [hword, hhalf]
  cases readChars 16 (2 ^ 32 - 1) ds <;> rfl

/-- What has no sign is read as a word if it is eight digits, and else as a magnitude. -/
theorem readPlain_eq_ok_iff {ds : List Char} (hsign : hasSign ds = false) {value : Int} :
    readPlain ds = .ok value ↔ IsHex ds
      ∧ (ds.length = 8 ∧ value = (BitVec.ofNat 32 (hexValue ds)).toInt
        ∨ ds.length ≠ 8 ∧ hexValue ds < 2 ^ 63 ∧ value = hexValue ds) := by
  rw [readPlain_eq, BitVec.toInt_ofNat']
  split_ifs with hlength
  · rw [map_eq_ok_iff]
    simp only [readChars_eq_ok_iff_of_not_hasSign hsign]
    constructor
    · rintro ⟨_, ⟨hds, rfl, -⟩, rfl⟩
      exact ⟨hds, .inl ⟨hlength, rfl⟩⟩
    · rintro ⟨hds, ⟨-, hvalue⟩ | ⟨hother, -⟩⟩
      · -- eight digits never exceed a word
        have hbound := Numeral.hexValue_lt hds.2
        rw [hlength] at hbound
        exact ⟨_, ⟨hds, rfl, by omega⟩, hvalue.symm⟩
      · exact absurd hlength hother
  · rw [map_eq_ok_iff]
    simp only [readChars_eq_ok_iff_of_not_hasSign hsign]
    constructor
    · rintro ⟨_, ⟨hds, rfl, hbound⟩, rfl⟩
      exact ⟨hds, .inr ⟨hlength, by omega, rfl⟩⟩
    · rintro ⟨hds, ⟨height, -⟩ | ⟨-, hlt, rfl⟩⟩
      · exact absurd height hlength
      · exact ⟨_, ⟨hds, rfl, by omega⟩, rfl⟩

theorem readOffset_eq_of_minus {s : String} {cs : List Char}
    (h : (Text.trim s).toList = '-' :: cs) :
    readOffset s
      = if hasSign (dropRadixMark cs) then .error (.secondSign (Text.trim s))
        else ((readChars 16 (2 ^ 63 - 1) (dropRadixMark cs)).map
          fun n : Nat => Int64.ofInt (-n)).mapError (.badOffset (Text.trim s)) := by
  have hne : Text.trim s ≠ "" := fun hempty => by simp [hempty] at h
  have hhalf : UInt64.size / 2 = 2 ^ 63 := rfl
  simp only [readOffset, if_neg hne, h, List.head?_cons, if_true, List.tail_cons, hhalf]
  cases readChars 16 (2 ^ 63 - 1) (dropRadixMark cs) <;> rfl

theorem readOffset_eq_of_ne_minus {s : String} (hne : (Text.trim s).toList ≠ [])
    (hminus : (Text.trim s).toList.head? ≠ some '-') :
    readOffset s
      = if hasSign (dropRadixMark (Text.trim s).toList) then .error (.secondSign (Text.trim s))
        else ((readPlain (dropRadixMark (Text.trim s).toList)).map Int64.ofInt).mapError
          (.badOffset (Text.trim s)) := by
  have hempty : Text.trim s ≠ "" := fun h => hne (String.toList_eq_nil_iff.2 h)
  simp only [readOffset, if_neg hempty, hminus, if_false]
  cases readPlain (dropRadixMark (Text.trim s).toList) <;> rfl

/-- A text that begins with a minus sign is read as a magnitude. -/
theorem readOffset_of_minus {s : String} {cs : List Char} (h : (Text.trim s).toList = '-' :: cs)
    {offset : Int64} :
    readOffset s = .ok offset ↔ IsHex (dropRadixMark cs) ∧ hexValue (dropRadixMark cs) < 2 ^ 63
      ∧ offset = Int64.ofInt (-hexValue (dropRadixMark cs)) := by
  rw [readOffset_eq_of_minus h]
  generalize dropRadixMark cs = ds
  cases hsign : hasSign ds with
  | true =>
    have hno : ¬ IsHex ds := fun hds => by simp [hasSign_of_isHex hds] at hsign
    simp [hno]
  | false =>
    rw [if_neg Bool.false_ne_true, mapError_eq_ok_iff, map_eq_ok_iff]
    simp only [readChars_eq_ok_iff_of_not_hasSign hsign]
    constructor
    · rintro ⟨_, ⟨hds, rfl, hbound⟩, rfl⟩
      exact ⟨hds, by omega, rfl⟩
    · rintro ⟨hds, hlt, rfl⟩
      exact ⟨_, ⟨hds, rfl, by omega⟩, rfl⟩

/-- A text that begins with something else is read as a word or as a magnitude. -/
theorem readOffset_of_ne_minus {s : String} (hne : (Text.trim s).toList ≠ [])
    (hminus : (Text.trim s).toList.head? ≠ some '-') {ds : List Char}
    (h : dropRadixMark (Text.trim s).toList = ds) {offset : Int64} :
    readOffset s = .ok offset ↔ IsHex ds
      ∧ (ds.length = 8 ∧ offset = Int64.ofInt (BitVec.ofNat 32 (hexValue ds)).toInt
        ∨ ds.length ≠ 8 ∧ hexValue ds < 2 ^ 63 ∧ offset = Int64.ofInt (hexValue ds)) := by
  rw [readOffset_eq_of_ne_minus hne hminus, h]
  cases hsign : hasSign ds with
  | true =>
    have hno : ¬ IsHex ds := fun hds => by simp [hasSign_of_isHex hds] at hsign
    simp [hno]
  | false =>
    rw [if_neg Bool.false_ne_true, mapError_eq_ok_iff, map_eq_ok_iff]
    simp only [readPlain_eq_ok_iff hsign]
    constructor
    · rintro ⟨_, ⟨hds, ⟨hlength, rfl⟩ | ⟨hlength, hlt, rfl⟩⟩, rfl⟩
      · exact ⟨hds, .inl ⟨hlength, rfl⟩⟩
      · exact ⟨hds, .inr ⟨hlength, hlt, rfl⟩⟩
    · rintro ⟨hds, ⟨hlength, rfl⟩ | ⟨hlength, hlt, rfl⟩⟩
      · exact ⟨_, ⟨hds, .inl ⟨hlength, rfl⟩⟩, rfl⟩
      · exact ⟨_, ⟨hds, .inr ⟨hlength, hlt, rfl⟩⟩, rfl⟩

theorem IsOffset.range {cs : List Char} {offset : Int} (h : IsOffset cs offset) :
    -2 ^ 63 ≤ offset ∧ offset < 2 ^ 63 := by
  cases h with
  | empty => omega
  | negative _ _ hlt => omega
  | @word mark ds =>
    have hlow : -2 ^ 31 ≤ (BitVec.ofNat 32 (hexValue ds)).toInt := BitVec.le_toInt _
    have hhigh : (BitVec.ofNat 32 (hexValue ds)).toInt < 2 ^ 31 := BitVec.toInt_lt
    omega
  | plain _ _ _ hlt => omega

theorem IsOffset.toInt_ofInt {cs : List Char} {offset : Int} (h : IsOffset cs offset) :
    (Int64.ofInt offset).toInt = offset :=
  Int64.toInt_ofInt_of_le h.range.1 h.range.2

theorem isOffset_of_readOffset {s : String} {offset : Int64} (h : readOffset s = .ok offset) :
    ∃ value, IsOffset (Text.trim s).toList value ∧ offset = Int64.ofInt value := by
  by_cases hempty : (Text.trim s).toList = []
  · rw [readOffset, if_pos (String.toList_eq_nil_iff.1 hempty)] at h
    cases h
    exact ⟨0, hempty ▸ .empty, rfl⟩
  by_cases hminus : (Text.trim s).toList.head? = some '-'
  · obtain ⟨cs, hcs⟩ := List.head?_eq_some_iff.1 hminus
    obtain ⟨hds, hlt, rfl⟩ := (readOffset_of_minus hcs).1 h
    obtain ⟨mark, hmark, heq⟩ := exists_mark cs
    have hform := IsOffset.negative hmark hds hlt
    rw [List.cons_append, ← heq, ← hcs] at hform
    exact ⟨_, hform, rfl⟩
  · obtain ⟨mark, hmark, heq⟩ := exists_mark (Text.trim s).toList
    obtain ⟨hds, ⟨hlength, rfl⟩ | ⟨hlength, hlt, rfl⟩⟩ :=
      (readOffset_of_ne_minus hempty hminus rfl).1 h
    · have hform := IsOffset.word hmark hds hlength
      rw [← heq] at hform
      exact ⟨_, hform, rfl⟩
    · have hform := IsOffset.plain hmark hds hlength hlt
      rw [← heq] at hform
      exact ⟨_, hform, rfl⟩

theorem readOffset_of_isOffset {s : String} {value : Int}
    (h : IsOffset (Text.trim s).toList value) : readOffset s = .ok (Int64.ofInt value) := by
  have hdrop {mark ds : List Char} (hmark : mark ∈ radixMarks) (hds : IsHex ds) :
      dropRadixMark (mark ++ ds) = ds := dropRadixMark_append hmark List.mem_cons_self hds
  -- what has digits is not empty, and without a minus sign in front it is not read as negative
  have hplain {mark ds : List Char} (hmark : mark ∈ radixMarks) (hds : IsHex ds)
      (htext : (Text.trim s).toList = mark ++ ds) :
      (Text.trim s).toList ≠ [] ∧ (Text.trim s).toList.head? ≠ some '-'
        ∧ dropRadixMark (Text.trim s).toList = ds := by
    rw [htext]
    exact ⟨by simp [hds.1], head?_mark_append_ne hmark hds, hdrop hmark hds⟩
  generalize htext : (Text.trim s).toList = cs at h
  cases h with
  | empty => rw [readOffset, if_pos (String.toList_eq_nil_iff.1 htext)]; rfl
  | @negative mark ds hmark hds hlt =>
    rw [List.cons_append] at htext
    rw [readOffset_of_minus htext, hdrop hmark hds]
    exact ⟨hds, hlt, rfl⟩
  | word hmark hds hlength =>
    obtain ⟨hne, hminus, hrest⟩ := hplain hmark hds htext
    exact (readOffset_of_ne_minus hne hminus hrest).2 ⟨hds, .inl ⟨hlength, rfl⟩⟩
  | plain hmark hds hlength hlt =>
    obtain ⟨hne, hminus, hrest⟩ := hplain hmark hds htext
    exact (readOffset_of_ne_minus hne hminus hrest).2 ⟨hds, .inr ⟨hlength, hlt, rfl⟩⟩

/-- A text is read as an offset exactly if it has the form of one. -/
theorem readOffset_eq_ok_iff {s : String} {offset : Int64} :
    readOffset s = .ok offset ↔ IsOffset (Text.trim s).toList offset.toInt := by
  constructor
  · intro h
    obtain ⟨value, hform, rfl⟩ := isOffset_of_readOffset h
    rwa [hform.toInt_ofInt]
  · intro h
    rw [readOffset_of_isOffset h, Int64.ofInt_toInt]

/-- A text is read as an offset exactly if it has the form of one, and refused as an operand if it
has not. -/
theorem offsets_as_text (s : String) :
    (∀ offset : Int64,
        Setting.read .offset s = .ok offset ↔ IsOffset (Text.trim s).toList offset.toInt)
      ∧ ((∃ offset, Setting.read .offset s = .ok offset) ↔ ∃ n, IsOffset (Text.trim s).toList n)
      ∧ ((∃ fault, Setting.read .offset s = .error (.malformedOperand fault))
        ↔ ∀ n, ¬ IsOffset (Text.trim s).toList n) := by
  have hiff (offset : Int64) :
      Setting.read .offset s = .ok offset ↔ IsOffset (Text.trim s).toList offset.toInt := by
    rw [← readOffset_eq_ok_iff, Setting.read, mapError_eq_ok_iff]
  have hexists : (∃ offset, Setting.read .offset s = .ok offset)
      ↔ ∃ n, IsOffset (Text.trim s).toList n := by
    constructor
    · rintro ⟨offset, h⟩
      exact ⟨_, (hiff offset).1 h⟩
    · rintro ⟨n, h⟩
      exact ⟨Int64.ofInt n, (hiff _).2 (by rwa [h.toInt_ofInt])⟩
  refine ⟨hiff, hexists, ?_⟩
  rw [← not_exists, ← hexists, Setting.read, exists_mapError_eq_error_iff]
  simp only [mapError_eq_ok_iff, not_exists, ne_eq]

end Operand

end Landmark
