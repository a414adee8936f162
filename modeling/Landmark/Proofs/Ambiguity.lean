import Mathlib.Data.List.Flatten
import Mathlib.Data.List.Forall2
import Mathlib.Tactic.Common
import Landmark.Proofs.HexNumerals
import Landmark.Proofs.SignatureText

/-!
# Ambiguous formats

A valid format may still be ambiguous: in radix 16 the wildcard `FF` is the token of a byte as well,
and the separator `0` is a digit. All signatures of significant bytes survive their own text in
exactly the formats in which no byte is written with the wildcard in it or is cut by the separator
(`Signature.parse_format_exact_iff`).

That nothing less will do shows on signatures of two bytes. They are read back from two pieces, each
as long as the shortest numeral of its byte (`Signature.exists_pair`), and the text has no room for
these beside a separator that stands anywhere but between the tokens (`Text.uncut_of_pair`,
`Text.eq_singleton_of_pair`).
-/

namespace Landmark

open Landmark.Text (Uncut splitOn)

namespace Numeral

/-- The value of a numeral is bounded by the number of its digits. -/
theorem lt_pow_of_readDigits {radix bound : Nat} : ∀ {cs : List Char} {start value : Nat},
    readDigits radix bound start cs = .ok value → value < (start + 1) * radix ^ cs.length
  | [], start, value, h => by
    cases h
    simp
  | c :: cs, start, value, h => by
    unfold readDigits at h
    rcases hdigit : digitIn radix c with _ | d <;> simp only [hdigit] at h
    · cases h
    · split_ifs at h
      have hd : d < radix := by
        have := (Option.filter_eq_some_iff.1 hdigit).2
        simpa using this
      calc value < (start * radix + d + 1) * radix ^ cs.length := lt_pow_of_readDigits h
        _ ≤ (start + 1) * radix * radix ^ cs.length :=
          Nat.mul_le_mul_right _ (by rw [Nat.add_mul]; omega)
        _ = (start + 1) * radix ^ (c :: cs).length := by
          rw [List.length_cons, Nat.pow_succ, Nat.mul_assoc, Nat.mul_comm radix]

/-- A numeral has no fewer characters than the digits of its value. -/
theorem length_digits_le_of_read {radix bound : Nat} (hlow : 2 ≤ radix) {s : String} {value : Nat}
    (h : read radix bound s = .ok value) : (digits radix value).length ≤ s.toList.length := by
  unfold read readChars at h
  split at h
  · cases h
  · cases h
  · rename_i c cs hcs
    rw [hcs, length_digits_le_iff hlow _ _ (by simp)]
    calc value < (0 + 1) * radix ^ (c :: cs).length := lt_pow_of_readDigits h
      _ ≤ radix ^ ('+' :: c :: cs).length := by
        rw [Nat.zero_add, Nat.one_mul]
        exact Nat.pow_le_pow_right (by omega) (by simp)
  · rename_i c cs _ _ hcs
    rw [hcs, length_digits_le_iff hlow _ _ (by simp)]
    simpa using lt_pow_of_readDigits h

theorem length_digits_mono {radix : Nat} (hlow : 2 ≤ radix) {m n : Nat} (h : m ≤ n) :
    (digits radix m).length ≤ (digits radix n).length := by
  have hpos := List.length_pos_iff.2 (digits_ne_nil radix n)
  rw [length_digits_le_iff hlow m _ hpos]
  exact Nat.lt_of_le_of_lt h ((length_digits_le_iff hlow n _ hpos).1 (Nat.le_refl _))

end Numeral

namespace Text

theorem length_trim_le (s : String) : (trim s).toList.length ≤ s.toList.length := by
  rw [trim, String.toList_ofList]
  exact (List.rdropWhile_prefix _ _).length_le.trans (List.dropWhile_suffix _).length_le

variable {separator p q : List Char}

theorem length_add_length_le {pieces : List (List Char)} (h : [p, q].Sublist pieces) :
    p.length + q.length ≤ (pieces.map List.length).sum := by
  simpa using h.flatten.length_le

/-- A text that stands twice around a separator is uncut if two pieces are as long as it. -/
theorem uncut_of_pair (hseparator : separator ≠ []) {text : List Char}
    (hsublist : [p, q].Sublist (splitOn separator (text ++ (separator ++ text))))
    (hp : text.length ≤ p.length) (hq : text.length ≤ q.length) : Uncut separator text := by
  have hpos := List.length_pos_iff.2 hseparator
  have hjoined := intercalate_splitOn hseparator (text ++ (separator ++ text))
  have hlength := length_intercalate separator _
    (splitOn_ne_nil separator (text ++ (separator ++ text)))
  have hsum := length_add_length_le hsublist
  rw [hjoined] at hlength
  simp only [List.length_append] at hlength
  -- with more than one separator there is no room for two pieces of this length
  have hcount : (splitOn separator (text ++ (separator ++ text))).length = 2 := by
    have hle : 2 ≤ (splitOn separator (text ++ (separator ++ text))).length := hsublist.length_le
    by_contra hmore
    have hseparators : 3 * separator.length
        ≤ (splitOn separator (text ++ (separator ++ text))).length * separator.length :=
      Nat.mul_le_mul_right _ (by omega)
    omega
  have hpieces := hsublist.eq_of_length hcount.symm
  rw [← hpieces] at hjoined hlength
  simp only [List.map_cons, List.map_nil, List.sum_cons, List.sum_nil, List.length_cons,
    List.length_nil] at hlength
  have htext : p = text := by
    rw [List.intercalate_cons_cons, List.intercalate_singleton, List.append_assoc] at hjoined
    exact List.append_inj_left hjoined (by omega)
  exact htext ▸ uncut_of_splitOn hseparator hpieces.symm

/-- If a separator that follows two characters shows up in front of them, and there are two pieces
of which the later one is as long as what comes next, then the separator is the first character. -/
theorem eq_singleton_of_pair (hseparator : separator ≠ []) {c d : Char} {rest : List Char}
    (hearly : separator <+: [c, d] ++ separator)
    (hsublist : [p, q].Sublist (splitOn separator ([c, d] ++ (separator ++ rest))))
    (hp : p ≠ []) (hq : rest.length ≤ q.length) : separator = [c] := by
  obtain ⟨behind, hbehind⟩ : separator <+: [c, d] ++ (separator ++ rest) := by
    rw [← List.append_assoc]
    exact hearly.trans (List.prefix_append _ _)
  -- the piece in front is empty, so that the two are pieces of what is behind the separator
  rw [← hbehind, splitOn_separator_append hseparator] at hsublist
  have hpieces : [p, q].Sublist (splitOn separator behind) := by
    rcases hsublist with _ | ⟨_, hpieces⟩ | _
    · exact hpieces
    · exact absurd rfl hp
  have hlength := length_intercalate separator _ (splitOn_ne_nil separator behind)
  rw [intercalate_splitOn hseparator] at hlength
  have hcount := Nat.mul_le_mul_right separator.length hpieces.length_le
  have hsum := length_add_length_le hpieces
  have htotal := congrArg List.length hbehind
  simp only [List.length_append, List.length_cons, List.length_nil] at htotal hcount
  have hpos := List.length_pos_iff.2 hp
  have hone : separator.length = 1 := by
    have := List.length_pos_iff.2 hseparator
    omega
  obtain ⟨first, rfl⟩ := List.length_eq_one_iff.1 hone
  obtain ⟨rfl, -⟩ := List.cons_prefix_cons.1 hearly
  rfl

end Text

theorem toNat_add_sixteen {byte : UInt8} (h : byte.toNat < 16) :
    (byte + 16).toNat = byte.toNat + 16 := by
  rw [UInt8.toNat_add]
  exact Nat.mod_eq_of_lt (by simp; omega)

namespace SignatureFormat

variable {format : SignatureFormat}

theorem length_byteToken {byte : UInt8} (h : ¬ (format.radix = 16 ∧ byte.toNat < 16)) :
    (format.byteToken byte).toList.length = (Numeral.digits format.radix byte.toNat).length := by
  rw [toList_byteToken, if_neg h, List.nil_append]

theorem toList_byteToken_of_lt (hradix : format.radix = 16) {byte : UInt8}
    (h : byte.toNat < 16) : (format.byteToken byte).toList = ['0', Numeral.digit byte.toNat] := by
  rw [toList_byteToken, if_pos ⟨hradix, h⟩, hradix, Numeral.digits_of_lt h]
  rfl

/-- The byte that is sixteen higher ends with the same digit. -/
theorem toList_byteToken_add (hradix : format.radix = 16) {byte : UInt8}
    (h : byte.toNat < 16) :
    (format.byteToken (byte + 16)).toList = [Numeral.digit 1, Numeral.digit byte.toNat] := by
  rw [toList_byteToken, hradix, toNat_add_sixteen h, if_neg (by omega),
    Numeral.digits_of_le (by omega), Nat.add_mod_right, Nat.mod_eq_of_lt h,
    Nat.add_div_right _ (by omega), Nat.div_eq_of_lt h, Numeral.digits_of_lt (by omega)]
  rfl

end SignatureFormat

namespace Signature

variable {format : SignatureFormat}

theorem length_digits_le_of_readToken (hvalid : format.validate = .ok ()) {token : String}
    {byte : UInt8} (h : readToken format token = .ok (.exactly byte)) :
    (Numeral.digits format.radix byte.toNat).length ≤ token.toList.length := by
  obtain ⟨-, -, hlow, -⟩ := SignatureFormat.validate_eq_ok_iff.1 hvalid
  unfold readToken at h
  split_ifs at h
  · cases h
  · rcases hread : Numeral.read format.radix 255 (Text.trim token) with fault | value <;>
      rw [hread] at h <;> cases h
    calc (Numeral.digits format.radix (UInt8.ofNat value).toNat).length
        ≤ (Numeral.digits format.radix value).length :=
          Numeral.length_digits_mono hlow (Nat.mod_le value _)
      _ ≤ (Text.trim token).toList.length := Numeral.length_digits_le_of_read hlow hread
      _ ≤ token.toList.length := Text.length_trim_le token

/-- A signature of significant bytes is read from pieces of the text, in order and one for each
byte. -/
theorem exists_pieces {text : String} {bytes : List UInt8}
    (h : parse format text = .ok (exact bytes)) :
    ∃ pieces : List (List Char),
      pieces.Sublist (splitOn format.separator.toList text.toList)
        ∧ List.Forall₂ (fun piece byte => readToken format (String.ofList piece)
            = .ok (.exactly byte)) pieces bytes := by
  obtain ⟨-, places, hplaces, htrimmed⟩ := exists_places_of_parse h
  have hsublist := (sublist_of_trimmed htrimmed).map (Except.ok (ε := SignatureFault))
  rw [← hplaces, Text.pieces, List.map_map, List.sublist_map_iff] at hsublist
  obtain ⟨pieces, hpieces, hread⟩ := hsublist
  refine ⟨pieces, hpieces.trans List.filter_sublist, ?_⟩
  rw [exact, List.map_map] at hread
  rw [← List.forall₂_eq_eq_eq, List.forall₂_map_left_iff, List.forall₂_map_right_iff] at hread
  exact hread.flip.imp fun _ _ hsame => hsame.symm

theorem toList_format_pair (format : SignatureFormat) (a b : UInt8) :
    ((exact [a, b]).format format).toList
      = (format.byteToken a).toList
        ++ (format.separator.toList ++ (format.byteToken b).toList) := by
  simp [Signature.format, exact, token, Place.exactly]

/-- The pieces of two tokens with a separator between them, if they are read as two bytes. -/
theorem exists_pair (hvalid : format.validate = .ok ()) {a b : UInt8}
    (h : parse format ((exact [a, b]).format format) = .ok (exact [a, b])) :
    ∃ p q : List Char,
      [p, q].Sublist (splitOn format.separator.toList ((exact [a, b]).format format).toList)
        ∧ (Numeral.digits format.radix a.toNat).length ≤ p.length
        ∧ (Numeral.digits format.radix b.toNat).length ≤ q.length := by
  obtain ⟨pieces, hpieces, hread⟩ := exists_pieces h
  rcases hread with _ | ⟨hp, _ | ⟨hq, _ | _⟩⟩
  rename_i p q
  have hp := length_digits_le_of_readToken hvalid hp
  have hq := length_digits_le_of_readToken hvalid hq
  rw [String.toList_ofList] at hp hq
  exact ⟨_, _, hpieces, hp, hq⟩

/-- A byte whose numeral is not padded is uncut if it is read back twice in a row. -/
theorem uncut_of_parse (hvalid : format.validate = .ok ()) {byte : UInt8}
    (hfull : ¬ (format.radix = 16 ∧ byte.toNat < 16))
    (h : parse format ((exact [byte, byte]).format format) = .ok (exact [byte, byte])) :
    Uncut format.separator.toList (format.byteToken byte).toList := by
  obtain ⟨p, q, hsublist, hp, hq⟩ := exists_pair hvalid h
  rw [toList_format_pair] at hsublist
  rw [← SignatureFormat.length_byteToken hfull] at hp hq
  exact Text.uncut_of_pair (SignatureFormat.validate_eq_ok_iff.1 hvalid).1 hsublist hp hq

/-- A byte whose numeral is padded is uncut as well, if the other ones are and it is read back in
front of a byte whose numeral is not. -/
theorem uncut_of_parse_padded (hvalid : format.validate = .ok ()) (hradix : format.radix = 16)
    (hfull : ∀ byte : UInt8, 16 ≤ byte.toNat →
      Uncut format.separator.toList (format.byteToken byte).toList)
    {byte : UInt8} (hbyte : byte.toNat < 16)
    (h : parse format ((exact [byte, 255]).format format) = .ok (exact [byte, 255])) :
    Uncut format.separator.toList (format.byteToken byte).toList := by
  -- a separator that begins with the last digit cuts the byte that is sixteen higher, too
  have hlast (low : UInt8) (hlow : low.toNat < 16) :
      ¬ format.separator.toList <+: Numeral.digit low.toNat :: format.separator.toList := by
    have hhigh : 16 ≤ (low + 16).toNat := by
      rw [toNat_add_sixteen hlow]
      omega
    have huncut := hfull (low + 16) hhigh 1
    rw [SignatureFormat.toList_byteToken_add hradix hlow] at huncut
    exact huncut (by simp)
  rw [SignatureFormat.toList_byteToken_of_lt hradix hbyte]
  intro j hj hearly
  obtain rfl | rfl : j = 0 ∨ j = 1 := by
    rw [List.length_cons, List.length_singleton] at hj
    omega
  · obtain ⟨p, q, hsublist, hp, hq⟩ := exists_pair hvalid h
    have hunpadded : ¬ (format.radix = 16 ∧ (255 : UInt8).toNat < 16) := fun hlow =>
      absurd hlow.2 (by decide)
    rw [toList_format_pair, SignatureFormat.toList_byteToken_of_lt hradix hbyte] at hsublist
    rw [← SignatureFormat.length_byteToken hunpadded] at hq
    have hnonempty : p ≠ [] := by
      rintro rfl
      exact Numeral.digits_ne_nil _ _ (List.length_eq_zero_iff.1 (Nat.le_zero.1 hp))
    have hpadding := Text.eq_singleton_of_pair (SignatureFormat.validate_eq_ok_iff.1 hvalid).1
      hearly hsublist hnonempty hq
    have hzero := hlast 0 (by decide)
    rw [hpadding] at hzero
    exact hzero (by decide)
  · exact hlast byte hbyte hearly

/-- A byte that is read back does not have the wildcard in it. -/
theorem not_infix_of_parse (hvalid : format.validate = .ok ()) {byte : UInt8}
    (huncut : Uncut format.separator.toList (format.byteToken byte).toList)
    (h : parse format ((exact [byte]).format format) = .ok (exact [byte])) :
    ¬ format.wildcard.toList <:+: (format.byteToken byte).toList := by
  intro hinfix
  have hpieces : Text.pieces format.separator ((exact [byte]).format format)
      = [format.byteToken byte] :=
    Text.pieces_intercalate (SignatureFormat.validate_eq_ok_iff.1 hvalid).1
      (by simpa [exact, token, Place.exactly] using SignatureFormat.byteToken_ne_nil format byte)
      (by simpa [exact, token, Place.exactly] using huncut)
  obtain ⟨-, places, hplaces, htrimmed⟩ := exists_places_of_parse h
  have hwild : readToken format (format.byteToken byte) = .ok .wildcard := by
    rw [readToken, if_pos (Text.occursIn_iff.2 hinfix)]
  rw [hpieces, List.map_singleton, hwild] at hplaces
  obtain ⟨place, rfl, hplace⟩ := List.map_eq_singleton_iff.1 hplaces.symm
  cases hplace
  have hmem := (sublist_of_trimmed htrimmed).subset (List.mem_singleton_self (Place.exactly byte))
  cases List.mem_singleton.1 hmem

/-- In a valid format all signatures of significant bytes survive their own text exactly if no byte
is written with the wildcard in it or is cut by the separator. -/
theorem parse_format_exact_iff (hvalid : format.validate = .ok ()) :
    (∀ bytes, parse format ((exact bytes).format format) = .ok (exact bytes))
      ↔ format.IsUnambiguous := by
  constructor
  · intro h
    have hfull (byte : UInt8) (hbyte : ¬ (format.radix = 16 ∧ byte.toNat < 16)) :
        Uncut format.separator.toList (format.byteToken byte).toList :=
      uncut_of_parse hvalid hbyte (h [byte, byte])
    have huncut (byte : UInt8) : Uncut format.separator.toList (format.byteToken byte).toList := by
      by_cases hbyte : format.radix = 16 ∧ byte.toNat < 16
      · exact uncut_of_parse_padded hvalid hbyte.1
          (fun other hother => hfull other fun hlow => by omega) hbyte.2 (h [byte, 255])
      · exact hfull byte hbyte
    exact ⟨fun byte => not_infix_of_parse hvalid (huncut byte) (h [byte]), huncut⟩
  · intro h bytes
    have hblanked : (exact bytes).blanked = exact bytes := by
      simp [blanked, exact, Place.blanked, Place.exactly]
    have hparse : parse format ((exact bytes).format format) = (exact bytes).blanked.trimmed := by
      refine parse_format_eq hvalid (fun place hplace => ?_) fun place _ =>
        legible_byte hvalid (h.wildcard place.byte)
      obtain ⟨byte, -, rfl⟩ := List.mem_map.1 hplace
      exact h.separator byte
    rw [hparse, hblanked, (isTrimmed_exact bytes).trimmed_eq]

/-- A format with a digit in its separator, which no byte is cut by. -/
theorem parse_format_exact_iff_marked :
    let format : SignatureFormat := ⟨" 0x", "??", 16⟩
    format.validate = .ok ()
      ∧ ∀ bytes, parse format ((exact bytes).format format) = .ok (exact bytes) := by
  intro format
  have hvalid : format.validate = .ok () := by decide
  have hseparator (byte : UInt8) :
      Uncut format.separator.toList (format.byteToken byte).toList := by
    rw [show format.separator.toList = [' ', '0', 'x'] by decide]
    exact .of_notMem fun hmem =>
      absurd (SignatureFormat.isNumeralChar_of_mem_byteToken hvalid hmem) (by decide)
  exact ⟨hvalid, (parse_format_exact_iff hvalid).2
    ⟨SignatureFormat.not_infix_byteToken hvalid ⟨'?', by decide⟩, hseparator⟩⟩

/-- A valid format whose wildcard is a byte, and one whose separator is a digit. -/
theorem exact_ne_parse_format :
    let wild : SignatureFormat := ⟨" ", "FF", 16⟩
    let cutting : SignatureFormat := ⟨"0", "?", 16⟩
    (wild.validate = .ok ()
        ∧ parse wild ((exact [0x48, 0xFF, 0x8D]).format wild)
          = .ok ⟨[.exactly 0x48, .wildcard, .exactly 0x8D]⟩
        ∧ parse wild ((exact [0x48, 0xFF, 0x8D]).format wild) ≠ .ok (exact [0x48, 0xFF, 0x8D]))
      ∧ cutting.validate = .ok ()
        ∧ parse cutting ((exact [0x10]).format cutting) = .ok (exact [0x01])
        ∧ parse cutting ((exact [0x10]).format cutting) ≠ .ok (exact [0x10]) := by
  decide +kernel

end Signature

end Landmark
