import Mathlib.Tactic.Common
import Landmark.Proofs.Numerals
import Landmark.Proofs.Splitting
import Landmark.Proofs.Trimming

/-!
# Reading a signature from its own text

The text of a signature is read back token by token if no token is cut by the separator and each is
read as the place that it was written for, up to the placeholder under a wildcard
(`Signature.parse_format_eq`). Formats whose separator and wildcard keep clear of each other and of
the characters of numerals are of this kind (`SignatureFormat.IsClear`), so in these every trimmed
signature survives in all that a search can tell, and a signature that was read survives unchanged
(`Signature.parse_format_of_isClear`).
-/

namespace Landmark

open Landmark.Text (Uncut)

theorem Except.mapM_eq_ok_iff {ε α β : Type} {f : α → Except ε β} :
    ∀ {as : List α} {bs : List β}, as.mapM f = .ok bs ↔ as.map f = bs.map .ok
  | [], bs => by cases bs <;> simp [pure, Except.pure]
  | a :: as, bs => by
    have ih (bs : List β) : as.mapM f = .ok bs ↔ as.map f = bs.map .ok := mapM_eq_ok_iff
    rw [List.mapM_cons]
    rcases ha : f a with e | b
    · cases bs <;> simp [bind, Except.bind, ha]
    · rcases has : as.mapM f with e | rest
      · cases bs <;> simp [bind, Except.bind, ← ih, ha, has]
      · cases bs <;> simp [bind, Except.bind, pure, Except.pure, ← ih, ha, has]

namespace Text

theorem occursIn_iff {sought : List Char} : ∀ {text : List Char},
    occursIn sought text = true ↔ sought <:+: text
  | [] => by simp [occursIn]
  | c :: text => by
    rw [occursIn, Bool.or_eq_true, List.isPrefixOf_iff_prefix, occursIn_iff, List.infix_cons_iff]

end Text

namespace Numeral

/-- Whether a character is a digit or a capital letter of ASCII. -/
def isNumeralChar (c : Char) : Bool :=
  c.isDigit || c.isUpper

theorem isNumeralChar_digit : ∀ d < 36, isNumeralChar (digit d) = true := by
  decide

end Numeral

namespace SignatureFormat

variable {format : SignatureFormat}

theorem validate_eq_ok_iff : format.validate = .ok () ↔ format.separator.toList ≠ []
    ∧ (∃ c ∈ format.wildcard.toList, c.isDigit = false) ∧ 2 ≤ format.radix ∧ format.radix ≤ 36 := by
  unfold validate
  split_ifs with hseparator hwildcard hradix <;> simp_all

theorem toList_byteToken (format : SignatureFormat) (byte : UInt8) :
    (format.byteToken byte).toList
      = (if format.radix = 16 ∧ byte.toNat < 16 then ['0'] else [])
        ++ Numeral.digits format.radix byte.toNat := by
  unfold byteToken
  split_ifs with h <;> simp [Numeral.hex, Numeral.write, h]

theorem byteToken_ne_nil (format : SignatureFormat) (byte : UInt8) :
    (format.byteToken byte).toList ≠ [] := by
  rw [toList_byteToken]
  exact List.append_ne_nil_of_right_ne_nil _ (Numeral.digits_ne_nil _ _)

theorem wildcard_ne_nil (h : format.validate = .ok ()) : format.wildcard.toList ≠ [] := by
  obtain ⟨-, ⟨c, hc, -⟩, -⟩ := validate_eq_ok_iff.1 h
  exact List.ne_nil_of_mem hc

/-- The token of a byte is made of digits of the radix. -/
theorem exists_digit_of_mem_byteToken (h : format.validate = .ok ()) {byte : UInt8} {c : Char}
    (hc : c ∈ (format.byteToken byte).toList) : ∃ d < format.radix, c = Numeral.digit d := by
  obtain ⟨-, -, hlow, -⟩ := validate_eq_ok_iff.1 h
  rw [toList_byteToken, List.mem_append] at hc
  rcases hc with hc | hc
  · split_ifs at hc
    · exact ⟨0, by omega, List.mem_singleton.1 hc⟩
    · cases hc
  · exact Numeral.mem_digits hlow _ hc

theorem isNumeralChar_of_mem_byteToken (h : format.validate = .ok ()) {byte : UInt8} {c : Char}
    (hc : c ∈ (format.byteToken byte).toList) : Numeral.isNumeralChar c = true := by
  obtain ⟨d, hd, rfl⟩ := exists_digit_of_mem_byteToken h hc
  have := (validate_eq_ok_iff.1 h).2.2.2
  exact Numeral.isNumeralChar_digit d (by omega)

/-- The token of a byte is a numeral of the byte. -/
theorem read_byteToken (h : format.validate = .ok ()) (byte : UInt8) :
    Numeral.read format.radix 255 (Text.trim (format.byteToken byte)) = .ok byte.toNat := by
  obtain ⟨-, -, hlow, hhigh⟩ := validate_eq_ok_iff.1 h
  have hbyte : byte.toNat ≤ 255 := by
    have := byte.toNat_lt
    omega
  have hclass {c : Char} (hc : c ∈ (format.byteToken byte).toList) :
      c ≠ '+' ∧ Text.isBlank c = false := by
    obtain ⟨d, hd, rfl⟩ := exists_digit_of_mem_byteToken h hc
    obtain ⟨hplus, -, hblank⟩ := Numeral.digit_not_sign_nor_blank d (by omega)
    exact ⟨hplus, hblank⟩
  rw [Text.trim_eq_self fun c hc => (hclass hc).2, Numeral.read,
    Numeral.readChars_eq (byteToken_ne_nil format byte) fun hc => (hclass hc).1 rfl,
    toList_byteToken]
  have hdigits := Numeral.readDigits_digits hlow hhigh byte.toNat [] hbyte
  rw [List.append_nil] at hdigits
  split_ifs with hpadded
  · -- the leading zero leaves the value where it starts
    have hzero : Numeral.digitIn format.radix '0' = some 0 :=
      Numeral.digitIn_digit hhigh (d := 0) (by omega)
    simpa [Numeral.readDigits, hzero] using hdigits
  · simpa [Numeral.readDigits] using hdigits

/-- No byte is written with the wildcard in it or is cut by the separator. -/
structure IsUnambiguous (format : SignatureFormat) : Prop where
  wildcard : ∀ byte, ¬ format.wildcard.toList <:+: (format.byteToken byte).toList
  separator : ∀ byte, Uncut format.separator.toList (format.byteToken byte).toList

/-- A wildcard with a character that no numeral has is in no byte. -/
theorem not_infix_byteToken (h : format.validate = .ok ())
    (hwildcard : ∃ c ∈ format.wildcard.toList, Numeral.isNumeralChar c = false) (byte : UInt8) :
    ¬ format.wildcard.toList <:+: (format.byteToken byte).toList := by
  intro hcontained
  obtain ⟨c, hc, hother⟩ := hwildcard
  have hnumeral := isNumeralChar_of_mem_byteToken h (hcontained.subset hc)
  rw [hother] at hnumeral
  cases hnumeral

/-- A format whose separator and wildcard cannot be taken for each other, nor for a byte: they share
no character, the separator has no character of numerals and the wildcard not only such ones. -/
structure IsClear (format : SignatureFormat) : Prop where
  valid : format.validate = .ok ()
  apart : ∀ c ∈ format.separator.toList, c ∉ format.wildcard.toList
  separator : ∀ c ∈ format.separator.toList, Numeral.isNumeralChar c = false
  wildcard : ∃ c ∈ format.wildcard.toList, Numeral.isNumeralChar c = false

theorem IsClear.isUnambiguous (h : format.IsClear) : format.IsUnambiguous where
  wildcard := not_infix_byteToken h.valid h.wildcard
  separator byte := by
    refine .of_disjoint (validate_eq_ok_iff.1 h.valid).1 fun c hc hmem => ?_
    have hnumeral := isNumeralChar_of_mem_byteToken h.valid hmem
    rw [h.separator c hc] at hnumeral
    cases hnumeral

theorem isClear_default : IsClear {} where
  valid := by decide
  apart c hc := by
    obtain rfl : c = ' ' := List.mem_singleton.1 hc
    decide
  separator c hc := by
    obtain rfl : c = ' ' := List.mem_singleton.1 hc
    decide
  wildcard := ⟨'?', by decide, by decide⟩

end SignatureFormat

namespace Signature

variable {format : SignatureFormat}

/-- The token of a place is read as the place, but for the placeholder. -/
def Legible (format : SignatureFormat) (place : Place) : Prop :=
  readToken format (token format place) = .ok place.blanked

theorem legible_wildcard {place : Place} (h : place.significant = false) :
    Legible format place := by
  have hself : Text.occursIn format.wildcard.toList format.wildcard.toList = true :=
    Text.occursIn_iff.2 List.infix_rfl
  simp [Legible, readToken, token, Place.blanked, h, hself]

theorem legible_byte (hvalid : format.validate = .ok ()) {place : Place}
    (h : ¬ format.wildcard.toList <:+: (format.byteToken place.byte).toList) :
    Legible format place := by
  rcases hsignificant : place.significant with _ | _
  · exact legible_wildcard hsignificant
  · have hnot : Text.occursIn format.wildcard.toList (format.byteToken place.byte).toList = false :=
      Bool.eq_false_iff.2 fun hoccurs => h (Text.occursIn_iff.1 hoccurs)
    have hplace : Place.exactly place.byte = place := by
      rw [Place.exactly, ← hsignificant]
    simp [Legible, readToken, token, Place.blanked, hsignificant, hnot,
      SignatureFormat.read_byteToken hvalid, hplace]

theorem token_ne_nil (hvalid : format.validate = .ok ()) (place : Place) :
    (token format place).toList ≠ [] := by
  unfold token
  split_ifs
  · exact SignatureFormat.byteToken_ne_nil format place.byte
  · exact SignatureFormat.wildcard_ne_nil hvalid

/-- In a valid format a text is read piece by piece and then cut. -/
theorem parse_eq (hvalid : format.validate = .ok ()) (text : String) : parse format text
    = ((Text.pieces format.separator text).mapM (readToken format)).bind
        fun places => trimmed ⟨places⟩ := by
  rw [parse, hvalid]
  rfl

/-- A text whose tokens are uncut and legible is read as what it was written for, cut to its
significant part. -/
theorem parse_format_eq (hvalid : format.validate = .ok ()) {s : Signature}
    (huncut : ∀ place ∈ s.places, Uncut format.separator.toList (token format place).toList)
    (hlegible : ∀ place ∈ s.places, Legible format place) :
    parse format (s.format format) = s.blanked.trimmed := by
  have hseparator := (SignatureFormat.validate_eq_ok_iff.1 hvalid).1
  have hpieces : Text.pieces format.separator (s.format format) = s.places.map (token format) := by
    refine Text.pieces_intercalate hseparator ?_ ?_
    · simpa using fun place _ => token_ne_nil hvalid place
    · simpa using huncut
  have hread : (s.places.map (token format)).mapM (readToken format)
      = .ok (s.places.map Place.blanked) := by
    rw [Except.mapM_eq_ok_iff, List.map_map, List.map_map]
    exact List.map_congr_left hlegible
  rw [parse_eq hvalid, hpieces, hread]
  rfl

theorem blanked_of_readToken {token : String} {place : Place}
    (h : readToken format token = .ok place) : place.blanked = place := by
  unfold readToken at h
  split_ifs at h
  · cases h
    rfl
  · rcases hread : Numeral.read format.radix 255 (Text.trim token) with fault | value <;>
      rw [hread] at h <;> cases h
    rfl

theorem exists_places_of_parse {text : String} {s : Signature} (h : parse format text = .ok s) :
    format.validate = .ok () ∧ ∃ places : List Place,
      (Text.pieces format.separator text).map (readToken format) = places.map .ok
        ∧ trimmed ⟨places⟩ = .ok s := by
  unfold parse at h
  rcases hvalid : format.validate with fault | _ <;> rw [hvalid] at h
  · cases h
  · rcases hread : (Text.pieces format.separator text).mapM (readToken format)
      with fault | places <;> rw [hread] at h
    · cases h
    · exact ⟨rfl, places, Except.mapM_eq_ok_iff.1 hread, h⟩

/-- A signature that was read is trimmed and has no placeholder but zero. -/
theorem of_parse_eq_ok {text : String} {s : Signature} (h : parse format text = .ok s) :
    s.IsTrimmed ∧ s.blanked = s := by
  obtain ⟨-, places, hplaces, htrimmed⟩ := exists_places_of_parse h
  refine ⟨isTrimmed_of_trimmed htrimmed, ?_⟩
  have hblanked : ∀ place ∈ s.places, place.blanked = place := by
    intro place hplace
    have hmem : Except.ok place ∈ (Text.pieces format.separator text).map (readToken format) := by
      rw [hplaces]
      exact List.mem_map_of_mem ((sublist_of_trimmed htrimmed).subset hplace)
    obtain ⟨token, -, htoken⟩ := List.mem_map.1 hmem
    exact blanked_of_readToken htoken
  rw [blanked, List.map_congr_left hblanked, List.map_id']

/-! ## Clear formats -/

/-- In a clear format a signature is read from its text as it is, cut to its significant part and
blanked. -/
theorem parse_format_of_clear (h : format.IsClear) (s : Signature) :
    parse format (s.format format) = s.blanked.trimmed := by
  refine parse_format_eq h.valid (fun place _ => ?_) fun place _ =>
    legible_byte h.valid (h.isUnambiguous.wildcard place.byte)
  unfold token
  split_ifs
  · exact h.isUnambiguous.separator place.byte
  · exact .of_disjoint (SignatureFormat.validate_eq_ok_iff.1 h.valid).1 h.apart

/-- In a clear format a trimmed signature is read from its text with the same mask, the same bytes
at its significant places and zeros at the others, so every algorithm finds both at the same
offsets; and a signature that was read from a text, in whatever format, is read from its own text
as it is. -/
theorem parse_format_of_isClear (h : format.IsClear) :
    (∀ s : Signature, s.IsTrimmed → ∃ q, parse format (s.format format) = .ok q
        ∧ q.mask = s.mask
        ∧ (∀ i, (hi : i < s.places.length) → s.places[i].significant →
            q.places[i]? = some s.places[i])
        ∧ (∀ place ∈ q.places, place.significant = false → place.byte = 0)
        ∧ ∀ (algorithm : Algorithm) (haystack : List UInt8),
            algorithm.apply q.places haystack = algorithm.apply s.places haystack)
      ∧ ∀ (other : SignatureFormat) (text : String) (s : Signature),
          parse other text = .ok s → parse format (s.format format) = .ok s := by
  have hparse (s : Signature) (hs : s.IsTrimmed) :
      parse format (s.format format) = .ok s.blanked := by
    rw [parse_format_of_clear h, trimmed_blanked, hs.trimmed_eq]
    rfl
  refine ⟨fun s hs => ⟨s.blanked, hparse s hs, ?_, fun i hi hsignificant => ?_, ?_,
    fun algorithm haystack => apply_blanked algorithm s haystack⟩, fun other text s hread => ?_⟩
  · simp [mask, blanked]
  · simp [blanked, Place.blanked, hi, hsignificant]
  · intro place hplace hwild
    obtain ⟨place, -, rfl⟩ := List.mem_map.1 hplace
    rw [Place.significant_blanked] at hwild
    simp [Place.blanked, hwild, Place.wildcard]
  · obtain ⟨hs, hblanked⟩ := of_parse_eq_ok hread
    rw [hparse s hs, hblanked]

/-- The default format is clear, and a placeholder is lost in it. -/
theorem parse_format_of_isClear_default :
    let s : Signature := ⟨[.exactly 0x0A, ⟨0x07, false⟩, .exactly 0xFF]⟩
    SignatureFormat.IsClear {} ∧ s.IsTrimmed
      ∧ ∃ q, parse {} (s.format {}) = .ok q ∧ q.mask = s.mask
        ∧ ∀ (algorithm : Algorithm) (haystack : List UInt8),
            algorithm.apply q.places haystack = algorithm.apply s.places haystack := by
  intro s
  have htrimmed : s.IsTrimmed := by decide
  have hclear := SignatureFormat.isClear_default
  obtain ⟨q, hread, hmask, -, -, hsame⟩ := (parse_format_of_isClear hclear).1 s htrimmed
  exact ⟨hclear, htrimmed, q, hread, hmask, hsame⟩

end Signature

end Landmark
