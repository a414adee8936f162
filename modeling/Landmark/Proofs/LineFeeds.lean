import Mathlib.Data.List.Infix
import Mathlib.Tactic.Common
import Landmark.Document.Basic
import Landmark.Proofs.SignatureText

/-!
# Line feeds in a stored signature

Line feeds in the text of an entry are read as spaces, whatever the separator of the format is. So
tokens that are joined by separators and line feeds are read like the same tokens between separators
if the separator is a space or a line feed itself; and in a format of which no text with a line feed
in it can be read, they are refused alike. In every other valid format some tokens are not
(`SignatureFormat.lineFeedsSeparate_iff`): a digit twice will do, with the one joint between the two
written either way.
-/

namespace Landmark

open Landmark.Text (Uncut splitOn joinLines)

namespace Text

theorem joinLines_eq_self {s : String} (h : '\n' ∉ s.toList) : joinLines s = s := by
  have hmap : s.toList.map (fun c => if c = '\n' then ' ' else c) = s.toList := by
    refine (List.map_congr_left fun c hc => if_neg ?_).trans (List.map_id' _)
    rintro rfl
    exact h hc
  rw [joinLines, hmap, String.ofList_toList]

theorem joinLines_append (s t : String) : joinLines (s ++ t) = joinLines s ++ joinLines t := by
  simp [joinLines]

theorem lineFeed_notMem_joinLines (s : String) : '\n' ∉ (joinLines s).toList := by
  simp only [joinLines, String.toList_ofList, List.mem_map, not_exists, not_and]
  intro c _
  split_ifs with hc
  · decide
  · exact hc

/-- Two texts of one character count as a space. -/
theorem joinLines_eq_space_iff {s : String} : joinLines s = " " ↔ s = " " ∨ s = "\n" := by
  constructor
  · intro h
    rw [joinLines, ← String.toList_inj, String.toList_ofList,
      show " ".toList = [' '] from rfl, List.map_eq_singleton_iff] at h
    obtain ⟨c, hc, hspace⟩ := h
    split_ifs at hspace with hbreak
    · exact .inr (String.toList_inj.1 (by rw [hc, hbreak]; rfl))
    · exact .inl (String.toList_inj.1 (by rw [hc, hspace]; rfl))
  · rintro (rfl | rfl) <;> decide

theorem space_mem_joinLines {s : String} (h : '\n' ∈ s.toList) : ' ' ∈ (joinLines s).toList := by
  simpa [joinLines] using ⟨'\n', h, by simp⟩

/-- A text in which the separator does not occur is its own only piece. -/
theorem pieces_eq_singleton {separator text : String} (hne : text ≠ "")
    (h : ¬ separator.toList <:+: text.toList) : pieces separator text = [text] := by
  have hnil : splitOn separator.toList [] = [[]] := by rw [splitOn]
  have hsplit := splitOn_append hnil text.toList fun j _ hbegins => by
    rw [List.append_nil] at hbegins
    exact h (hbegins.isInfix.trans (List.drop_suffix j _).isInfix)
  rw [List.append_nil] at hsplit
  simp [pieces, hsplit, hne]

/-- The texts that are joined from tokens, each joint being the separator or a line feed. -/
inductive Joined (separator : String) : List String → String → Prop
  | nil : Joined separator [] ""
  | single (token : String) : Joined separator [token] token
  | cons {token joint next text : String} {tokens : List String} :
    joint = separator ∨ joint = "\n" → Joined separator (next :: tokens) text →
      Joined separator (token :: next :: tokens) (token ++ joint ++ text)

namespace Joined

variable {separator text : String} {tokens : List String}

/-- Line feeds and separators that are read as one space are read alike. -/
theorem joinLines_eq (h : Joined separator tokens text) (hspace : joinLines separator = " ") :
    joinLines text = joinLines (separator.intercalate tokens) := by
  induction h with
  | nil => simp
  | single token => simp
  | cons hjoint _ ih =>
    have hbreak : joinLines "\n" = " " := by decide
    rw [String.intercalate_cons_cons, joinLines_append, joinLines_append, joinLines_append,
      joinLines_append, ih, hspace]
    rcases hjoint with rfl | rfl
    · rw [hspace]
    · rw [hbreak]

/-- With a line feed in the separator there is one in every joint. -/
theorem eq_or_lineFeed_mem (h : Joined separator tokens text) (hbreak : '\n' ∈ separator.toList) :
    text = separator.intercalate tokens
      ∨ '\n' ∈ text.toList ∧ '\n' ∈ (separator.intercalate tokens).toList := by
  cases h with
  | nil => simp
  | single token => simp
  | cons hjoint =>
    right
    rw [String.intercalate_cons_cons]
    rcases hjoint with rfl | rfl <;> simp [hbreak]

end Joined

end Text

namespace Signature

variable {format : SignatureFormat}

/-- A text of one piece is read as that. -/
theorem parse_of_pieces_eq_singleton (hvalid : format.validate = .ok ()) {text token : String}
    (h : Text.pieces format.separator text = [token]) :
    parse format text = (readToken format token).bind fun place => trimmed ⟨[place]⟩ := by
  rw [parse_eq hvalid, h]
  cases hread : readToken format token <;> simp [hread, bind, Except.bind, pure, Except.pure]

theorem eq_badToken_of_readToken {token : String} {fault : SignatureFault}
    (h : readToken format token = .error fault) : ∃ cause, fault = .badToken token cause := by
  unfold readToken at h
  split_ifs at h
  cases hread : Numeral.read format.radix 255 (Text.trim token) <;> rw [hread] at h <;> cases h
  exact ⟨_, rfl⟩

/-- With a line feed in the separator and a space as wildcard no text of several lines is read. -/
theorem parse_joinLines_of_lineFeed (hvalid : format.validate = .ok ())
    (hbreak : '\n' ∈ format.separator.toList) (hwildcard : format.wildcard = " ") {text : String}
    (h : '\n' ∈ text.toList) : parse format (joinLines text) = .error .nothingSignificant := by
  have hspace := Text.space_mem_joinLines h
  have hne : joinLines text ≠ "" := by
    rintro hnil
    simp [hnil] at hspace
  have hpieces : Text.pieces format.separator (joinLines text) = [joinLines text] :=
    Text.pieces_eq_singleton hne fun hwithin =>
      Text.lineFeed_notMem_joinLines text (hwithin.subset hbreak)
  have hoccurs : Text.occursIn format.wildcard.toList (joinLines text).toList = true := by
    rw [Text.occursIn_iff, hwildcard]
    exact (List.singleton_infix_iff ' ' _).2 hspace
  rw [parse_of_pieces_eq_singleton hvalid hpieces, readToken, if_pos hoccurs]
  rfl

/-! ## A digit twice -/

section Digits

variable {n : Nat}

/-- The digit of a number. -/
def digitToken (n : Nat) : String :=
  String.ofList [Numeral.digit n]

/-- The digit of a number twice, with a joint between the two. -/
def twice (n : Nat) (joint : String) : String :=
  digitToken n ++ joint ++ digitToken n

theorem toList_twice (n : Nat) (joint : String) :
    (twice n joint).toList = Numeral.digit n :: (joint.toList ++ [Numeral.digit n]) := by
  simp [twice, digitToken]

theorem digitToken_prefix_twice (n : Nat) (joint : String) :
    (digitToken n).toList <+: (twice n joint).toList := by
  rw [twice, String.append_assoc, String.toList_append]
  exact List.prefix_append _ _

theorem twice_inj {s t : String} : twice n s = twice n t ↔ s = t := by
  rw [← String.toList_inj, toList_twice, toList_twice, List.cons_inj_right,
    List.append_cancel_right_eq, String.toList_inj]

theorem lineFeed_notMem_digitToken (hn : n < 2) : '\n' ∉ (digitToken n).toList := by
  obtain rfl | rfl : n = 0 ∨ n = 1 := by omega
  · decide
  · decide

theorem joinLines_twice (hn : n < 2) (joint : String) :
    joinLines (twice n joint) = twice n (joinLines joint) := by
  have hdigit := Text.joinLines_eq_self (lineFeed_notMem_digitToken hn)
  rw [twice, Text.joinLines_append, Text.joinLines_append, hdigit]
  rfl

theorem trim_spaced (hn : n < 2) : Text.trim (twice n " ") = twice n " " := by
  obtain rfl | rfl : n = 0 ∨ n = 1 := by omega
  · decide
  · decide

/-- The space ends the numeral. -/
theorem readToken_spaced (hvalid : format.validate = .ok ()) (hn : n < 2) :
    readToken format (twice n " ")
      = if Text.occursIn format.wildcard.toList (twice n " ").toList then .ok .wildcard
        else .error (.badToken (twice n " ") .invalidDigit) := by
  obtain ⟨-, -, hlow, hhigh⟩ := SignatureFormat.validate_eq_ok_iff.1 hvalid
  have hplus : Numeral.digit n ≠ '+' := (Numeral.digit_not_sign_nor_blank n (by omega)).1
  have hdigit := Numeral.digitIn_digit hhigh (show n < format.radix by omega)
  have hspace : Numeral.digitIn format.radix ' ' = none := rfl
  have hread : Numeral.read format.radix 255 (twice n " ") = .error .invalidDigit := by
    rw [Numeral.read, toList_twice, Numeral.readChars_cons hplus]
    simp [Numeral.readDigits, hdigit, hspace]
    omega
  rw [readToken, trim_spaced hn, hread]

/-- A digit that is below every radix is read as a byte. -/
theorem readToken_digitToken (hvalid : format.validate = .ok ()) (hn : n < 2) :
    readToken format (digitToken n) = .ok (.exactly (UInt8.ofNat n)) := by
  obtain ⟨-, ⟨c, hc, hother⟩, hlow, hhigh⟩ := SignatureFormat.validate_eq_ok_iff.1 hvalid
  obtain ⟨-, -, hblank⟩ := Numeral.digit_not_sign_nor_blank n (by omega)
  have htoken : (digitToken n).toList = [Numeral.digit n] := String.toList_ofList
  have hnot : ¬ format.wildcard.toList <:+: [Numeral.digit n] := fun hwithin => by
    obtain rfl := List.mem_singleton.1 (hwithin.subset hc)
    obtain rfl | rfl : n = 0 ∨ n = 1 := by omega
    · cases hother
    · cases hother
  have hdigits : Numeral.digits format.radix n = [Numeral.digit n] := by
    rw [Numeral.digits, dif_neg (by omega)]
  have hread : Numeral.read format.radix 255 (digitToken n) = .ok n := by
    rw [Numeral.read, htoken, ← hdigits]
    exact Numeral.readChars_digits hlow hhigh (by omega)
  rw [readToken, htoken, if_neg (Text.occursIn_iff.not.2 hnot),
    Text.trim_eq_self (by simpa [htoken] using hblank), hread]

/-- One of the digits keeps a wildcard out that is not a single space. -/
theorem exists_not_infix_spaced {wildcard : List Char} (hne : wildcard ≠ [])
    (hspace : wildcard ≠ [' ']) : ∃ n < 2, ¬ wildcard <:+: (twice n " ").toList := by
  by_contra! hall
  have hzero := hall 0 (by omega)
  have hone := hall 1 (by omega)
  have hother : Numeral.digit 0 ≠ Numeral.digit 1 := by decide
  have hspaces : ∀ c ∈ wildcard, c = ' ' := by
    intro c hc
    have hmem := hzero.subset hc
    have hmem' := hone.subset hc
    simp [toList_twice] at hmem hmem'
    grind
  have hsublist := hzero.sublist.filter (· == ' ')
  rw [List.filter_eq_self.2 (by simpa using hspaces)] at hsublist
  rcases List.sublist_singleton.1 hsublist with hnil | hsingle
  · exact hne hnil
  · exact hspace hsingle

theorem not_infix_spaced {separator : List Char} (hne : separator ≠ [])
    (hspace : separator ≠ [' ']) (hfirst : separator.head? ≠ some (Numeral.digit n))
    (hbehind : separator ≠ [' ', Numeral.digit n]) :
    ¬ separator <:+: (twice n " ").toList := by
  obtain ⟨c, cs, rfl⟩ := List.exists_cons_of_ne_nil hne
  have hdigit : c ≠ Numeral.digit n := fun h => hfirst (congrArg some h)
  have htwice : (twice n " ").toList = [Numeral.digit n, ' ', Numeral.digit n] := toList_twice n " "
  simp only [htwice, List.infix_cons_iff, List.cons_prefix_cons, List.infix_nil, hdigit, hne,
    false_and, false_or, or_false]
  rintro ⟨rfl, hcs⟩
  rcases List.prefix_cons_iff.1 hcs with rfl | ⟨rest, rfl, hrest⟩
  · exact hspace rfl
  · rw [List.prefix_nil.1 hrest] at hbehind
    exact hbehind rfl

/-- One of the digits does not begin a separator and keeps it out, if it is not a single space. -/
theorem exists_not_separator_spaced {separator : List Char} (hne : separator ≠ [])
    (hspace : separator ≠ [' ']) :
    ∃ n < 2, separator.head? ≠ some (Numeral.digit n)
      ∧ ¬ separator <:+: (twice n " ").toList := by
  by_cases hzero : separator.head? = some '0' ∨ separator = [' ', '0']
  · have hfirst : separator.head? ≠ some (Numeral.digit 1) := by
      rcases hzero with hhead | rfl
      · rw [hhead]
        decide
      · decide
    refine ⟨1, by omega, hfirst, not_infix_spaced hne hspace hfirst ?_⟩
    rintro rfl
    revert hzero
    decide
  · have hfirst : separator.head? ≠ some (Numeral.digit 0) := fun h => hzero (.inl h)
    exact ⟨0, by omega, hfirst, not_infix_spaced hne hspace hfirst fun h => hzero (.inr h)⟩

theorem intercalate_digitToken (n : Nat) (separator : String) :
    separator.intercalate [digitToken n, digitToken n] = twice n separator := by
  rw [String.intercalate_cons_cons, String.intercalate_singleton]
  rfl

/-- Two digits between which the separator stands are two bytes. -/
theorem parse_twice_separator (hvalid : format.validate = .ok ()) (hn : n < 2)
    (hfirst : format.separator.toList.head? ≠ some (Numeral.digit n)) :
    parse format (twice n format.separator)
      = .ok (exact [UInt8.ofNat n, UInt8.ofNat n]) := by
  have hseparator := (SignatureFormat.validate_eq_ok_iff.1 hvalid).1
  have huncut : Uncut format.separator.toList (digitToken n).toList := by
    obtain ⟨c, cs, hcons⟩ := List.exists_cons_of_ne_nil hseparator
    rw [hcons] at hfirst ⊢
    refine .of_notMem ?_
    rw [digitToken, String.toList_ofList, List.mem_singleton]
    exact fun h => hfirst (congrArg some h)
  have hpieces : Text.pieces format.separator (twice n format.separator)
      = [digitToken n, digitToken n] := by
    rw [← intercalate_digitToken]
    exact Text.pieces_intercalate hseparator (by simp [digitToken]) (by simpa using huncut)
  have hread := readToken_digitToken hvalid hn
  rw [parse_eq hvalid, hpieces]
  simp only [List.mapM_cons, List.mapM_nil, hread]
  exact (isTrimmed_exact [UInt8.ofNat n, UInt8.ofNat n]).trimmed_eq

/-- Two digits that are one piece with the space between them are no signature. -/
theorem parse_spaced_ne_ok (hvalid : format.validate = .ok ()) (hn : n < 2)
    (hseparator : ¬ format.separator.toList <:+: (twice n " ").toList) (s : Signature) :
    parse format (twice n " ") ≠ .ok s := by
  have hpieces := Text.pieces_eq_singleton (by simp [twice]) hseparator
  rw [parse_of_pieces_eq_singleton hvalid hpieces, readToken_spaced hvalid hn]
  split_ifs
  · rintro ⟨⟩
  · rintro ⟨⟩

/-- A fault that names two digits and the space between them comes from that text only. -/
theorem eq_space_of_parse_twice (hvalid : format.validate = .ok ()) (hn : n < 2)
    (hbreak : '\n' ∈ format.separator.toList)
    (hwildcard : ¬ format.wildcard.toList <:+: (twice n " ").toList) {joint : String}
    (h : parse format (twice n " ") = parse format (twice n (joinLines joint))) :
    joinLines joint = " " := by
  have hpieces (inner : String) : Text.pieces format.separator (twice n (joinLines inner))
      = [twice n (joinLines inner)] := by
    rw [← joinLines_twice hn]
    refine Text.pieces_eq_singleton ?_ fun hwithin =>
      Text.lineFeed_notMem_joinLines _ (hwithin.subset hbreak)
    rw [joinLines_twice hn]
    simp [twice, digitToken]
  have hspace : joinLines " " = " " := by decide
  have hspaced := hpieces " "
  rw [hspace] at hspaced
  rw [parse_of_pieces_eq_singleton hvalid hspaced, readToken_spaced hvalid hn,
    if_neg (Text.occursIn_iff.not.2 hwildcard), parse_of_pieces_eq_singleton hvalid (hpieces joint)]
    at h
  cases hread : readToken format (twice n (joinLines joint)) with
  | ok place =>
    rw [hread] at h
    cases (trimmed_eq_error_iff.1 h.symm).2.2
  | error fault =>
    obtain ⟨cause, rfl⟩ := eq_badToken_of_readToken hread
    rw [hread] at h
    have hsame := SignatureFault.badToken.inj (Except.error.inj h)
    exact (twice_inj.1 hsame.1).symm

end Digits

end Signature

namespace SignatureFormat

open Signature (parse twice digitToken)

/-- Line feeds count as separators: whichever joints between the tokens of an entry are line feeds,
its text is read, or refused, like the tokens between separators. -/
def LineFeedsSeparate (format : SignatureFormat) : Prop :=
  ∀ (entry : PatternEntry) (tokens : List String) (text : String),
    (∀ token ∈ tokens, token ≠ "" ∧ '\n' ∉ token.toList
      ∧ ¬ format.separator.toList <:+: token.toList) →
    Text.Joined format.separator tokens text →
      { entry with pattern := text }.signature format
        = { entry with pattern := format.separator.intercalate tokens }.signature format

variable {format : SignatureFormat} {n : Nat}

/-- What the text of two equal digits comes to when line feeds separate. -/
theorem LineFeedsSeparate.parse_twice (h : format.LineFeedsSeparate) (hn : n < 2)
    (hseparator : ¬ format.separator.toList <:+: (digitToken n).toList) :
    parse format (twice n " ") = parse format (twice n (joinLines format.separator)) := by
  have halike := h ⟨"", "", none⟩ [digitToken n, digitToken n] (twice n "\n") (by
      simpa using ⟨by simp [digitToken], Signature.lineFeed_notMem_digitToken hn, hseparator⟩)
    (.cons (.inr rfl) (.single _))
  have hbreak : joinLines "\n" = " " := by decide
  rw [Signature.intercalate_digitToken] at halike
  rw [← hbreak, ← Signature.joinLines_twice hn, ← Signature.joinLines_twice hn]
  exact halike

/-- Exactly in these valid formats line feeds count as separators. -/
theorem lineFeedsSeparate_iff (hvalid : format.validate = .ok ()) :
    format.LineFeedsSeparate ↔ format.separator = " " ∨ format.separator = "\n"
      ∨ '\n' ∈ format.separator.toList ∧ format.wildcard = " " := by
  constructor
  · intro h
    by_contra! hother
    obtain ⟨hspace, hfeed, hwildcard⟩ := hother
    have hjoint : joinLines format.separator ≠ " " := fun hjoined =>
      (Text.joinLines_eq_space_iff.1 hjoined).elim hspace hfeed
    by_cases hbreak : '\n' ∈ format.separator.toList
    · obtain ⟨n, hn, hkept⟩ := Signature.exists_not_infix_spaced (wildcard_ne_nil hvalid)
        fun hlist => hwildcard hbreak (String.toList_inj.1 hlist)
      have hseparator : ¬ format.separator.toList <:+: (digitToken n).toList := fun hwithin =>
        Signature.lineFeed_notMem_digitToken hn (hwithin.subset hbreak)
      exact hjoint (Signature.eq_space_of_parse_twice hvalid hn hbreak hkept
        (h.parse_twice hn hseparator))
    · obtain ⟨n, hn, hfirst, hkept⟩ := Signature.exists_not_separator_spaced
        (validate_eq_ok_iff.1 hvalid).1 fun hlist => hspace (String.toList_inj.1 hlist)
      have hseparator : ¬ format.separator.toList <:+: (digitToken n).toList := fun hwithin =>
        hkept (hwithin.trans (Signature.digitToken_prefix_twice n " ").isInfix)
      have hparse := h.parse_twice hn hseparator
      rw [Text.joinLines_eq_self hbreak, Signature.parse_twice_separator hvalid hn hfirst] at hparse
      exact Signature.parse_spaced_ne_ok hvalid hn hkept _ hparse
  · rintro hformat entry tokens text - hjoined
    rcases hformat with hspace | hfeed | ⟨hbreak, hwildcard⟩
    · exact congrArg (parse format)
        (hjoined.joinLines_eq (Text.joinLines_eq_space_iff.2 (.inl hspace)))
    · exact congrArg (parse format)
        (hjoined.joinLines_eq (Text.joinLines_eq_space_iff.2 (.inr hfeed)))
    · rcases hjoined.eq_or_lineFeed_mem hbreak with rfl | ⟨hmem, hmem'⟩
      · rfl
      · exact (Signature.parse_joinLines_of_lineFeed hvalid hbreak hwildcard hmem).trans
          (Signature.parse_joinLines_of_lineFeed hvalid hbreak hwildcard hmem').symm

/-- In the default format two lines are read like one. -/
theorem lineFeedsSeparate_iff_default :
    SignatureFormat.validate {} = .ok () ∧ LineFeedsSeparate {}
      ∧ PatternEntry.signature ⟨"Code", "48\n8D ??", none⟩ {}
        = PatternEntry.signature ⟨"Code", "48 8D ??", none⟩ {} := by
  have hvalid : SignatureFormat.validate {} = .ok () := by decide
  have hseparate := (lineFeedsSeparate_iff hvalid).2 (.inl rfl)
  refine ⟨hvalid, hseparate, ?_⟩
  have halike := hseparate ⟨"Code", "", none⟩ ["48", "8D", "??"] _ (by decide)
    (.cons (.inr rfl) (.cons (.inl rfl) (.single _)))
  have hlines : "48" ++ "\n" ++ ("8D" ++ " " ++ "??") = "48\n8D ??" := by decide
  have hline : " ".intercalate ["48", "8D", "??"] = "48 8D ??" := by decide
  rwa [hlines, hline] at halike

/-- With a comma as separator two bytes on two lines are one token that cannot be read. -/
theorem not_lineFeedsSeparate_comma :
    SignatureFormat.validate ⟨",", "?", 16⟩ = .ok ()
      ∧ PatternEntry.signature ⟨"P", "48,8D", none⟩ ⟨",", "?", 16⟩
        = .ok (Signature.exact [0x48, 0x8D])
      ∧ PatternEntry.signature ⟨"P", "48\n8D", none⟩ ⟨",", "?", 16⟩
        = .error (.badToken "48 8D" .invalidDigit)
      ∧ ¬ LineFeedsSeparate ⟨",", "?", 16⟩ := by
  have hread : PatternEntry.signature ⟨"P", "48,8D", none⟩ ⟨",", "?", 16⟩
      = .ok (Signature.exact [0x48, 0x8D]) := by decide +kernel
  have hrefused : PatternEntry.signature ⟨"P", "48\n8D", none⟩ ⟨",", "?", 16⟩
      = .error (.badToken "48 8D" .invalidDigit) := by decide +kernel
  refine ⟨by decide, hread, hrefused, fun h => ?_⟩
  have halike := h ⟨"P", "", none⟩ ["48", "8D"] _ (by decide) (.cons (.inr rfl) (.single _))
  have hlines : "48" ++ "\n" ++ "8D" = "48\n8D" := by decide
  have hline : ",".intercalate ["48", "8D"] = "48,8D" := by decide
  rw [hlines, hline] at halike
  cases hrefused.symm.trans (halike.trans hread)

end SignatureFormat

end Landmark
