import Mathlib.Data.List.Forall2
import Mathlib.Data.List.Infix
import Landmark.Proofs.HexNumerals
import Landmark.Proofs.SignatureText

/-!
# The grammar of signatures

In the default format a text is cut at single spaces. A word of it stands for a wildcard if it has a
question mark in it, and for a byte if it is a hexadecimal numeral between blank characters, with a
plus sign in front or none (`Signature.Spells`). A text is read if each of its words stands for a
place and not all of them for wildcards; what is read is the part from the first to the last byte
(`Signature.parse_default`). Any other text is refused for its first word that stands for nothing,
or for having nothing significant.
-/

namespace Landmark

theorem Except.mapM_eq_error_iff {ε α β : Type} {f : α → Except ε β} {e : ε} :
    ∀ {as : List α}, as.mapM f = .error e ↔ ∃ before a after, as = before ++ a :: after
      ∧ (∀ x ∈ before, ∃ b, f x = .ok b) ∧ f a = .error e
  | [] => by simp [pure, Except.pure]
  | a :: as => by
    have ih := @mapM_eq_error_iff _ _ _ f e as
    rw [List.mapM_cons]
    constructor
    · intro h
      rcases ha : f a with e' | b
      · rw [ha] at h
        cases h
        exact ⟨[], a, as, rfl, by simp, ha⟩
      · rcases has : as.mapM f with e' | bs
        · rw [ha, has] at h
          cases h
          obtain ⟨before, x, after, rfl, hbefore, hx⟩ := ih.1 has
          exact ⟨a :: before, x, after, rfl, List.forall_mem_cons.2 ⟨⟨b, ha⟩, hbefore⟩, hx⟩
        · rw [ha, has] at h
          cases h
    · rintro ⟨before, x, after, hsplit, hbefore, hx⟩
      rcases before with _ | ⟨x', before⟩
      · cases hsplit
        rw [hx]
        rfl
      · cases hsplit
        obtain ⟨⟨b, hb⟩, hrest⟩ := List.forall_mem_cons.1 hbefore
        rw [hb, ih.2 ⟨before, x, after, rfl, hrest, hx⟩]
        rfl

namespace Text

/-- The words of a text: its non-empty pieces between single spaces. -/
def words (text : String) : List (List Char) :=
  (text.toList.splitOn ' ').filter fun word => !word.isEmpty

theorem splitOn_singleton (c : Char) : ∀ cs : List Char, splitOn [c] cs = cs.splitOn c
  | [] => by rw [splitOn]; rfl
  | d :: cs => by
    have ih := splitOn_singleton c cs
    rw [splitOn, List.splitOn, List.splitOnP_cons_eq_if_modifyHead, ih]
    by_cases hd : c = d
    · simp [hd, splitOn_singleton d cs, List.splitOn]
    · rw [if_neg (by simpa using hd), if_neg (by simpa using Ne.symm hd)]
      rcases hrest : cs.splitOnP (· == c) with _ | ⟨piece, rest⟩
      · exact absurd hrest (List.splitOnP_ne_nil _ _)
      · simp [List.splitOn, hrest]

theorem pieces_space (text : String) : pieces " " text = (words text).map String.ofList := by
  rw [pieces, words, ← splitOn_singleton]
  rfl

theorem trimChars_eq_iff {cs middle : List Char} (h : ∀ c ∈ middle, isBlank c = false) :
    trimChars cs = middle
      ↔ ∃ front back, cs = front ++ middle ++ back ∧ ∀ c ∈ front ++ back, isBlank c = true := by
  have hfirst : middle.dropWhile isBlank = middle := dropWhile_isBlank_eq h
  have hlast : middle.rdropWhile isBlank = middle := by
    rw [List.rdropWhile, dropWhile_isBlank_eq (by simpa using h), List.reverse_reverse]
  exact rdropWhile_dropWhile_eq_iff.trans (and_iff_right ⟨hfirst, hlast⟩)

end Text

namespace Numeral

theorem IsHexDigit.not_isBlank {c : Char} (h : IsHexDigit c) : Text.isBlank c = false := by
  have hall : "0123456789abcdefABCDEF".toList.all (!Text.isBlank ·) = true := by decide
  simpa using List.all_eq_true.1 hall c h

end Numeral

namespace Signature

/-- A word that stands for a byte: one or more hexadecimal digits of its value, with a plus sign in
front or none, between blank characters. -/
def SpellsByte (word : List Char) (byte : UInt8) : Prop :=
  ∃ plus ∈ [[], ['+']], ∃ digits, Numeral.IsHex digits ∧ Numeral.hexValue digits = byte.toNat
    ∧ ∃ front back, word = front ++ (plus ++ digits) ++ back
      ∧ ∀ c ∈ front ++ back, Text.isBlank c = true

/-- The place that a word stands for. -/
inductive Spells : List Char → Place → Prop
  | wildcard {word : List Char} : '?' ∈ word → Spells word .wildcard
  | byte {word : List Char} {byte : UInt8} : SpellsByte word byte → Spells word (.exactly byte)

/-- The signature that words stand for: the part of their places that begins and ends with a byte.
It is empty only if there are no words. -/
structure Spelled (words : List (List Char)) (s : Signature) : Prop where
  isTrimmed : s.IsTrimmed
  eq_nil : s.places = [] → words = []
  places : ∃ before after, List.Forall₂ Spells words (before ++ s.places ++ after)
    ∧ ∀ place ∈ before ++ after, place.significant = false

/-- The fault that words are refused for: the first that stands for nothing, or having nothing but
wildcards. -/
inductive Misspelled (words : List (List Char)) : SignatureFault → Prop
  | badToken {before after : List (List Char)} {word : List Char} {cause : NumeralFault} :
    words = before ++ word :: after → (∀ w ∈ before, '?' ∈ w ∨ ∃ byte, SpellsByte w byte) →
      '?' ∉ word → Numeral.readChars 16 255 (Text.trimChars word) = .error cause →
        Misspelled words (.badToken (String.ofList word) cause)
  | nothingSignificant : words ≠ [] → (∀ w ∈ words, '?' ∈ w) → Misspelled words .nothingSignificant

/-- The numeral in a word, with its sign, has no blank character in it. -/
theorem not_isBlank_of_mem {plus digits : List Char} (hplus : plus ∈ [[], ['+']])
    (hdigits : Numeral.IsHex digits) : ∀ c ∈ plus ++ digits, Text.isBlank c = false := by
  intro c hc
  rcases List.mem_append.1 hc with hsign | hdigit
  · rcases List.mem_pair.1 hplus with rfl | rfl
    · cases hsign
    · rw [List.mem_singleton.1 hsign]
      decide
  · exact (hdigits.2 c hdigit).not_isBlank

theorem SpellsByte.notMem {word : List Char} {byte : UInt8} (h : SpellsByte word byte) :
    '?' ∉ word := by
  obtain ⟨plus, hplus, digits, ⟨-, hdigits⟩, -, front, back, rfl, hblank⟩ := h
  have hends : '?' ∉ front ++ back := fun hmem => by
    have := hblank _ hmem
    revert this
    decide
  have hsign : '?' ∉ plus := by
    rcases List.mem_pair.1 hplus with rfl | rfl <;> decide
  have hdigit : '?' ∉ digits := fun hmem => absurd (hdigits _ hmem) (by decide)
  simp only [List.mem_append, not_or] at hends ⊢
  exact ⟨⟨hends.1, hsign, hdigit⟩, hends.2⟩

/-- A word stands for a byte if it is read as one. -/
theorem spellsByte_iff {word : List Char} {byte : UInt8} :
    SpellsByte word byte ↔ Numeral.readChars 16 255 (Text.trimChars word) = .ok byte.toNat := by
  have hbound := byte.toNat_lt
  rw [Numeral.readChars_eq_ok_iff]
  constructor
  · rintro ⟨plus, hplus, digits, hdigits, hvalue, hends⟩
    have htrim := (Text.trimChars_eq_iff (not_isBlank_of_mem hplus hdigits)).2 hends
    exact ⟨plus, hplus, digits, htrim, hdigits, hvalue.symm, by omega⟩
  · rintro ⟨plus, hplus, digits, htrim, hdigits, hvalue, -⟩
    have hends := (Text.trimChars_eq_iff (not_isBlank_of_mem hplus hdigits)).1 htrim
    exact ⟨plus, hplus, digits, hdigits, hvalue.symm, hends⟩

/-- A question mark decides before the rest of a word is looked at. -/
theorem readToken_default (word : List Char) : readToken {} (String.ofList word)
    = if '?' ∈ word then .ok .wildcard
      else match Numeral.readChars 16 255 (Text.trimChars word) with
        | .ok value => .ok (.exactly (UInt8.ofNat value))
        | .error fault => .error (.badToken (String.ofList word) fault) := by
  have hoccurs : Text.occursIn "?".toList word = true ↔ '?' ∈ word :=
    Text.occursIn_iff.trans (List.singleton_infix_iff '?' word)
  rw [readToken, Text.trim, Numeral.read]
  simp only [String.toList_ofList]
  exact if_congr hoccurs rfl rfl

/-- A word is read as the place that it stands for. -/
theorem readToken_eq_ok_iff {word : List Char} {place : Place} :
    readToken {} (String.ofList word) = .ok place ↔ Spells word place := by
  rw [readToken_default]
  constructor
  · intro h
    split_ifs at h with hmark
    · cases h
      exact .wildcard hmark
    · rcases hread : Numeral.readChars 16 255 (Text.trimChars word) with fault | value
      · rw [hread] at h
        cases h
      · rw [hread] at h
        cases h
        obtain ⟨-, -, -, -, -, -, hbound⟩ := Numeral.readChars_eq_ok_iff.1 hread
        refine .byte (spellsByte_iff.2 (hread.trans ?_))
        rw [UInt8.toNat_ofNat_of_lt' (Nat.lt_succ_of_le hbound)]
  · rintro (hmark | hbyte)
    · rw [if_pos hmark]
    · rw [if_neg hbyte.notMem, spellsByte_iff.1 hbyte]
      simp

/-- A word that stands for nothing is refused by name. -/
theorem readToken_eq_error_iff {word : List Char} {fault : SignatureFault} :
    readToken {} (String.ofList word) = .error fault ↔ '?' ∉ word ∧ ∃ cause,
      Numeral.readChars 16 255 (Text.trimChars word) = .error cause
        ∧ fault = .badToken (String.ofList word) cause := by
  rw [readToken_default]
  split_ifs with hmark
  · simp [hmark]
  · rcases Numeral.readChars 16 255 (Text.trimChars word) with cause | value
    · simp [hmark, eq_comm]
    · simp

/-- Whether a word stands for a place. -/
theorem exists_spells_iff {word : List Char} :
    (∃ place, Spells word place) ↔ '?' ∈ word ∨ ∃ byte, SpellsByte word byte := by
  constructor
  · rintro ⟨_, hmark | hbyte⟩
    · exact .inl hmark
    · exact .inr ⟨_, hbyte⟩
  · rintro (hmark | ⟨byte, hbyte⟩)
    · exact ⟨_, .wildcard hmark⟩
    · exact ⟨_, .byte hbyte⟩

theorem Spells.significant_iff {word : List Char} {place : Place} (h : Spells word place) :
    place.significant = false ↔ '?' ∈ word := by
  cases h with
  | wildcard hmark => exact iff_of_true rfl hmark
  | byte hbyte => exact iff_of_false (by simp [Place.exactly]) hbyte.notMem

/-! ## Texts -/

theorem parse_default_eq (text : String) : parse {} text
    = ((Text.words text).mapM fun word => readToken {} (String.ofList word)).bind
        fun places => trimmed ⟨places⟩ := by
  have hvalid : SignatureFormat.validate {} = .ok () := by decide
  rw [parse_eq hvalid, Text.pieces_space, List.mapM_map]
  rfl

theorem mapM_readToken_eq_ok_iff {words : List (List Char)} {places : List Place} :
    words.mapM (fun word => readToken {} (String.ofList word)) = .ok places
      ↔ List.Forall₂ Spells words places := by
  rw [Except.mapM_eq_ok_iff, ← List.forall₂_eq_eq_eq, List.forall₂_map_left_iff,
    List.forall₂_map_right_iff]
  simp only [readToken_eq_ok_iff]

theorem parse_default_eq_ok {text : String} {s : Signature} : parse {} text = .ok s
    ↔ ∃ places, List.Forall₂ Spells (Text.words text) places ∧ trimmed ⟨places⟩ = .ok s := by
  rw [parse_default_eq]
  simp only [← mapM_readToken_eq_ok_iff]
  rcases (Text.words text).mapM fun word => readToken {} (String.ofList word) with fault | places
  · simp [Except.bind]
  · simp [Except.bind]

theorem parse_default_eq_error {text : String} {fault : SignatureFault} :
    parse {} text = .error fault
      ↔ (Text.words text).mapM (fun word => readToken {} (String.ofList word)) = .error fault
        ∨ ∃ places, List.Forall₂ Spells (Text.words text) places
          ∧ trimmed ⟨places⟩ = .error fault := by
  rw [parse_default_eq]
  simp only [← mapM_readToken_eq_ok_iff]
  rcases (Text.words text).mapM fun word => readToken {} (String.ofList word) with fault' | places
  · simp [Except.bind]
  · simp [Except.bind]

section Words

variable {words : List (List Char)} {places : List Place}

theorem exists_forall₂_iff :
    (∃ places, List.Forall₂ Spells words places)
      ↔ ∀ word ∈ words, '?' ∈ word ∨ ∃ byte, SpellsByte word byte := by
  induction words with
  | nil => simp
  | cons word words ih =>
    rw [List.forall_mem_cons, ← ih, ← exists_spells_iff]
    simp [List.forall₂_cons_left_iff]

theorem eq_nil_iff_of_forall₂ (h : List.Forall₂ Spells words places) :
    places = [] ↔ words = [] := by
  rw [← List.length_eq_zero_iff, ← List.length_eq_zero_iff, h.length_eq]

theorem wildcards_iff_of_forall₂ (h : List.Forall₂ Spells words places) :
    (∀ place ∈ places, place.significant = false) ↔ ∀ word ∈ words, '?' ∈ word := by
  induction h with
  | nil => simp
  | cons hspells _ ih => simp only [List.forall_mem_cons, hspells.significant_iff, ih]

end Words

theorem parse_default_eq_ok_iff {text : String} {s : Signature} :
    parse {} text = .ok s ↔ Spelled (Text.words text) s := by
  simp only [parse_default_eq_ok, trimmed_eq_ok_iff, trimPlaces_eq_iff]
  constructor
  · rintro ⟨places, hspells, ⟨htrimmed, before, after, rfl, hwild⟩, hnil⟩
    exact ⟨htrimmed, fun h => (eq_nil_iff_of_forall₂ hspells).1 (hnil h), before, after, hspells,
      hwild⟩
  · rintro ⟨htrimmed, hnil, before, after, hspells, hwild⟩
    exact ⟨_, hspells, ⟨htrimmed, before, after, rfl, hwild⟩,
      fun h => (eq_nil_iff_of_forall₂ hspells).2 (hnil h)⟩

/-- A text is read if each word of it stands for a place, and one of them for a byte if there are
words. -/
theorem exists_parse_default_iff {text : String} : (∃ s, parse {} text = .ok s)
    ↔ (∀ word ∈ Text.words text, '?' ∈ word ∨ ∃ byte, SpellsByte word byte)
      ∧ (Text.words text = [] ∨ ∃ word ∈ Text.words text, '?' ∉ word) := by
  rw [← exists_forall₂_iff]
  constructor
  · rintro ⟨s, hparse⟩
    obtain ⟨places, hspells, htrimmed⟩ := parse_default_eq_ok.1 hparse
    refine ⟨⟨places, hspells⟩, ?_⟩
    by_contra! hnone
    have herror : trimmed ⟨places⟩ = .error .nothingSignificant := trimmed_eq_error_iff.2
      ⟨(eq_nil_iff_of_forall₂ hspells).not.2 hnone.1, (wildcards_iff_of_forall₂ hspells).2 hnone.2,
        rfl⟩
    cases htrimmed.symm.trans herror
  · rintro ⟨⟨places, hspells⟩, hsome⟩
    rcases htrimmed : trimmed ⟨places⟩ with fault | s
    · obtain ⟨hne, hwild, -⟩ := trimmed_eq_error_iff.1 htrimmed
      rcases hsome with hnil | ⟨word, hword, hmark⟩
      · exact absurd ((eq_nil_iff_of_forall₂ hspells).2 hnil) hne
      · exact absurd ((wildcards_iff_of_forall₂ hspells).1 hwild word hword) hmark
    · exact ⟨s, parse_default_eq_ok.2 ⟨places, hspells, htrimmed⟩⟩

theorem parse_default_eq_error_iff {text : String} {fault : SignatureFault} :
    parse {} text = .error fault ↔ Misspelled (Text.words text) fault := by
  rw [parse_default_eq_error, Except.mapM_eq_error_iff]
  simp only [readToken_eq_ok_iff, exists_spells_iff, readToken_eq_error_iff]
  constructor
  · rintro (⟨before, word, after, hwords, hbefore, hmark, cause, hread, rfl⟩
      | ⟨places, hspells, htrimmed⟩)
    · exact .badToken hwords hbefore hmark hread
    · obtain ⟨hne, hwild, rfl⟩ := trimmed_eq_error_iff.1 htrimmed
      exact .nothingSignificant ((eq_nil_iff_of_forall₂ hspells).not.1 hne)
        ((wildcards_iff_of_forall₂ hspells).1 hwild)
  · rintro (⟨hwords, hbefore, hmark, hread⟩ | ⟨hne, hmarks⟩)
    · exact .inl ⟨_, _, _, hwords, hbefore, hmark, _, hread, rfl⟩
    · obtain ⟨places, hspells⟩ := exists_forall₂_iff.2 fun word hword => .inl (hmarks word hword)
      have hempty := (eq_nil_iff_of_forall₂ hspells).not.2 hne
      have hwild := (wildcards_iff_of_forall₂ hspells).2 hmarks
      exact .inr ⟨places, hspells, trimmed_eq_error_iff.2 ⟨hempty, hwild, rfl⟩⟩

/-- The default format, for every text: which texts are read, as which signature each of them is,
and why each of the others is refused. -/
theorem parse_default (text : String) :
    ((∃ s, parse {} text = .ok s)
        ↔ (∀ word ∈ Text.words text, '?' ∈ word ∨ ∃ byte, SpellsByte word byte)
          ∧ (Text.words text = [] ∨ ∃ word ∈ Text.words text, '?' ∉ word))
      ∧ (∀ s, parse {} text = .ok s ↔ Spelled (Text.words text) s)
      ∧ ∀ fault, parse {} text = .error fault ↔ Misspelled (Text.words text) fault :=
  ⟨exists_parse_default_iff, fun _ => parse_default_eq_ok_iff, fun _ => parse_default_eq_error_iff⟩

-- The wildcards at the ends are cut off, not the one inside.
example : parse {} "??  +4 x? 008D ?"
    = .ok ⟨[.exactly 4, .wildcard, .exactly 0x8D]⟩ := by decide +kernel

end Signature

end Landmark
