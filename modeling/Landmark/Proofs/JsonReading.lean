import Mathlib.Data.Nat.Basic
import Mathlib.Tactic.Common
import Landmark.Json.Parser
import Landmark.Json.Printer

/-!
# Reading back what was written as JSON

A text is read back from its escapes character by character (`quoted_quote`). A value of texts,
arrays and objects with named fields is read back from its lines, whatever stands behind it, if
there is room for its levels (`value_prettyTo`), and so it is what its whole text holds
(`ofText_pretty`).

Fuel never matters: each call goes on with a shorter text, so as much fuel as there are characters
is enough.
-/

namespace Landmark.Json

open Grammar

/-! ## Texts -/

/-- What the escape of a character is read as. -/
def pieceOf (c : Char) : Piece :=
  if shortEscape c = none ∧ c.toNat < 0x20 then .unit c.toNat else .char c

theorem shortEscape_eq_some {c e : Char} (h : shortEscape c = some e) :
    ofShortEscape e = some c ∧ e ≠ 'u' := by
  unfold shortEscape at h
  split_ifs at h <;> simp only [Option.some.injEq] at h <;> subst h <;> subst_vars <;> decide

theorem ofHexDigits_hexDigit : ∀ n < 0x20,
    ofHexDigits '0' '0' (hexDigit (n / 16)) (hexDigit (n % 16)) = some n := by decide

theorem pieces_short {e c : Char} (he : ofShortEscape e = some c) (hu : e ≠ 'u')
    (cs : List Char) :
    pieces ('\\' :: e :: cs) = (pieces cs).map fun found => (.char c :: found.1, found.2) := by
  rw [pieces.eq_4 _ _ (by rintro _ _ _ _ _ rfl; exact absurd rfl hu), he]
  rcases pieces cs with _ | ⟨rest, after⟩ <;> rfl

theorem pieces_unit {a b c d : Char} {value : Nat} (h : ofHexDigits a b c d = some value)
    (cs : List Char) :
    pieces ('\\' :: 'u' :: a :: b :: c :: d :: cs)
      = (pieces cs).map fun found => (.unit value :: found.1, found.2) := by
  rw [pieces, h]
  rcases pieces cs with _ | ⟨rest, after⟩ <;> rfl

theorem pieces_plain {c : Char} (hquote : c ≠ '"') (hslash : c ≠ '\\') (hlow : ¬ c.toNat < 0x20)
    (cs : List Char) :
    pieces (c :: cs) = (pieces cs).map fun found => (.char c :: found.1, found.2) := by
  rw [pieces.eq_def]
  split
  · rename_i heq
    cases heq
  · rename_i heq
    cases heq
    exact absurd rfl hquote
  · rename_i heq
    cases heq
    exact absurd rfl hslash
  · rename_i heq
    cases heq
    exact absurd rfl hslash
  · rename_i heq
    cases heq
    rw [if_neg (by simp [hslash, hlow])]
    rcases pieces cs with _ | ⟨rest, after⟩ <;> rfl

/-- The escape of a character is read as one piece. -/
theorem pieces_quoteChar (c : Char) (cs : List Char) :
    pieces (quoteChar c cs) = (pieces cs).map fun found => (pieceOf c :: found.1, found.2) := by
  unfold quoteChar pieceOf
  rcases hshort : shortEscape c with _ | e
  · by_cases hlow : c.toNat < 0x20
    · simp only [if_pos hlow, true_and]
      exact pieces_unit (ofHexDigits_hexDigit _ hlow) cs
    · simp only [if_neg hlow, true_and]
      refine pieces_plain ?_ ?_ hlow cs <;> rintro rfl <;> simp [shortEscape] at hshort
  · simp only [reduceCtorEq, false_and, if_false]
    obtain ⟨he, hu⟩ := shortEscape_eq_some hshort
    exact pieces_short he hu cs

theorem pieces_quoted : ∀ cs rest : List Char,
    pieces (cs.foldr quoteChar ('"' :: rest)) = some (cs.map pieceOf, rest)
  | [], rest => by rw [List.foldr_nil, pieces, List.map_nil]
  | c :: cs, rest => by
    rw [List.foldr_cons, pieces_quoteChar, pieces_quoted cs rest]
    rfl

theorem joinPieces_char (c : Char) (rest : List Piece) :
    joinPieces (.char c :: rest) = (joinPieces rest).map (c :: ·) := by
  rw [joinPieces]

theorem joinPieces_unit {value : Nat} (h : value < 0x20) (rest : List Piece) :
    joinPieces (.unit value :: rest) = (joinPieces rest).map (Char.ofNat value :: ·) := by
  have hhigh : isHighHalf value = false := by
    simp only [isHighHalf, Bool.and_eq_false_iff, decide_eq_false_iff_not]
    omega
  have hlow : isLowHalf value = false := by
    simp only [isLowHalf, Bool.and_eq_false_iff, decide_eq_false_iff_not]
    omega
  rw [joinPieces.eq_def]
  split
  · rename_i heq
    cases heq
  · rename_i heq
    cases heq
  · rename_i heq
    cases heq
    simp [hhigh, hlow]
  · rename_i heq
    cases heq
    simp [hhigh, hlow]

theorem joinPieces_pieceOf : ∀ cs : List Char, joinPieces (cs.map pieceOf) = some cs
  | [] => by rw [List.map_nil, joinPieces]
  | c :: cs => by
    rw [List.map_cons, pieceOf]
    split_ifs with h
    · rw [joinPieces_unit h.2, joinPieces_pieceOf cs, Option.map_some, Char.ofNat_toNat]
    · rw [joinPieces_char, joinPieces_pieceOf cs, Option.map_some]

/-- A text is read back from between its quotes. -/
theorem quoted_quote (s : String) (rest : List Char) :
    quoted (s.toList.foldr quoteChar ('"' :: rest)) = some (some s, rest) := by
  simp only [quoted, pieces_quoted, joinPieces_pieceOf, Option.bind_eq_bind, Option.bind_some,
    Option.map_some, String.ofList_toList]
  rfl

/-! ## Values -/

mutual

/-- Whether a value is made of texts, arrays and objects with named fields only. -/
def isPlain : Json → Bool
  | .string s => s.isSome
  | .array items => itemsPlain items
  | .object fields => fieldsPlain fields
  | _ => false

/-- Whether every item is plain. -/
def itemsPlain : List Json → Bool
  | [] => true
  | item :: items => item.isPlain && itemsPlain items

/-- Whether every field has a name and a plain value. -/
def fieldsPlain : List (Option String × Json) → Bool
  | [] => true
  | (name, value) :: fields => name.isSome && value.isPlain && fieldsPlain fields

end

theorem skipSpace_of_not_isSpace {c : Char} (h : isSpace c = false) (cs : List Char) :
    skipSpace (c :: cs) = c :: cs :=
  List.dropWhile_cons_of_neg (by simp [h])

theorem skipSpace_newLine (level : Nat) (cs : List Char) :
    skipSpace (newLine level cs) = skipSpace cs := by
  have hblanks : ∀ n, skipSpace (List.replicate n ' ' ++ cs) = skipSpace cs := by
    intro n
    induction n with
    | zero => rfl
    | succ n ih => rw [List.replicate_succ, List.cons_append, skipSpace,
        List.dropWhile_cons_of_pos rfl, ← skipSpace, ih]
  rw [newLine, skipSpace, List.dropWhile_cons_of_pos rfl, ← skipSpace, hblanks]

/-- Blanks before a value do not matter. -/
theorem value_skipSpace (fuel room : Nat) {cs cs' : List Char} (h : skipSpace cs = skipSpace cs') :
    value fuel room cs = value fuel room cs' := by
  cases fuel with
  | zero => rw [value, value]
  | succ fuel => rw [value, value, h]

/-- The text of the items behind one of them. -/
def itemsTail (level : Nat) (items : List Json) (rest : List Char) : List Char :=
  if items.isEmpty then rest else ',' :: prettyItems level items rest

/-- The text of the fields behind one of them. -/
def fieldsTail (level : Nat) (fields : List (Option String × Json)) (rest : List Char) :
    List Char :=
  if fields.isEmpty then rest else ',' :: prettyFields level fields rest

theorem itemsTail_cons (level : Nat) (item : Json) (items : List Json) (rest : List Char) :
    itemsTail level (item :: items) rest = ',' :: prettyItems level (item :: items) rest := by
  rw [itemsTail, List.isEmpty_cons, if_neg Bool.false_ne_true]

theorem fieldsTail_cons (level : Nat) (field : Option String × Json)
    (fields : List (Option String × Json)) (rest : List Char) :
    fieldsTail level (field :: fields) rest = ',' :: prettyFields level (field :: fields) rest := by
  rw [fieldsTail, List.isEmpty_cons, if_neg Bool.false_ne_true]

theorem prettyItems_cons (level : Nat) (item : Json) (items : List Json) (rest : List Char) :
    prettyItems level (item :: items) rest
      = newLine level (item.prettyTo level (itemsTail level items rest)) := by
  rw [prettyItems, itemsTail]

theorem prettyFields_cons (level : Nat) (name : Option String) (value : Json)
    (fields : List (Option String × Json)) (rest : List Char) :
    prettyFields level ((name, value) :: fields) rest
      = newLine level (quote (name.getD "")
          (':' :: ' ' :: value.prettyTo level (fieldsTail level fields rest))) := by
  rw [prettyFields, fieldsTail]

theorem length_le_newLine (level : Nat) (rest : List Char) :
    rest.length < (newLine level rest).length := by
  simp only [newLine, List.length_cons, List.length_append, List.length_replicate]
  omega

theorem length_le_quoteChars : ∀ cs rest : List Char,
    rest.length ≤ (cs.foldr quoteChar rest).length
  | [], rest => le_rfl
  | c :: cs, rest => by
    have ih := length_le_quoteChars cs rest
    rw [List.foldr_cons, quoteChar]
    split
    · simp only [List.length_cons]
      omega
    · split_ifs <;> simp only [List.length_cons] <;> omega

theorem length_lt_quote (s : String) (rest : List Char) :
    rest.length < (quote s rest).length := by
  have := length_le_quoteChars s.toList ('"' :: rest)
  simp only [quote, List.length_cons] at *
  omega

mutual

theorem length_le_prettyTo (level : Nat) : ∀ (value : Json) (rest : List Char),
    rest.length ≤ (value.prettyTo level rest).length
  | .array [], rest | .object [], rest => by
    simp [prettyTo]
    omega
  | .array (item :: items), rest => by
    have hitems := length_le_prettyItems (level + 1) (item :: items) (newLine level (']' :: rest))
    have hline := length_le_newLine level (']' :: rest)
    simp only [prettyTo, List.isEmpty_cons, Bool.false_eq_true, if_false, List.length_cons] at *
    omega
  | .object (field :: fields), rest => by
    have hfields :=
      length_le_prettyFields (level + 1) (field :: fields) (newLine level ('}' :: rest))
    have hline := length_le_newLine level ('}' :: rest)
    simp only [prettyTo, List.isEmpty_cons, Bool.false_eq_true, if_false, List.length_cons] at *
    omega
  | .string (some s), rest => by
    simpa only [prettyTo, scalar] using Nat.le_of_lt (length_lt_quote s rest)
  | .natural n, rest => by
    simp [prettyTo, scalar]
  | .null, rest | .bool true, rest | .bool false, rest | .number, rest | .string none, rest
  | .cut, rest => by
    simp only [prettyTo, scalar, List.length_cons]
    omega

theorem length_le_prettyItems (level : Nat) : ∀ (items : List Json) (rest : List Char),
    rest.length ≤ (prettyItems level items rest).length
  | [], rest => le_rfl
  | item :: items, rest => by
    have htail : rest.length ≤ (itemsTail level items rest).length := by
      unfold itemsTail
      split_ifs
      · exact le_rfl
      · exact Nat.le_succ_of_le (length_le_prettyItems level items rest)
    have hitem := length_le_prettyTo level item (itemsTail level items rest)
    have hline := length_le_newLine level (item.prettyTo level (itemsTail level items rest))
    rw [prettyItems_cons]
    omega

theorem length_le_prettyFields (level : Nat) :
    ∀ (fields : List (Option String × Json)) (rest : List Char),
      rest.length ≤ (prettyFields level fields rest).length
  | [], rest => le_rfl
  | (name, value) :: fields, rest => by
    have htail : rest.length ≤ (fieldsTail level fields rest).length := by
      unfold fieldsTail
      split_ifs
      · exact le_rfl
      · exact Nat.le_succ_of_le (length_le_prettyFields level fields rest)
    have hvalue := length_le_prettyTo level value (fieldsTail level fields rest)
    have hquote := length_lt_quote (name.getD "")
      (':' :: ' ' :: value.prettyTo level (fieldsTail level fields rest))
    have hline := length_le_newLine level (quote (name.getD "")
      (':' :: ' ' :: value.prettyTo level (fieldsTail level fields rest)))
    rw [prettyFields_cons]
    simp only [List.length_cons] at *
    omega

end

/-- The first character of a plain value stands for its kind. -/
theorem prettyTo_eq_cons (level : Nat) {value : Json} (h : value.isPlain = true)
    (rest : List Char) :
    ∃ c cs, value.prettyTo level rest = c :: cs ∧ isSpace c = false ∧ c ≠ ']' ∧ c ≠ '}' := by
  cases value with
  | array items =>
    unfold prettyTo
    split_ifs <;> exact ⟨_, _, rfl, by decide, by decide, by decide⟩
  | object fields =>
    unfold prettyTo
    split_ifs <;> exact ⟨_, _, rfl, by decide, by decide, by decide⟩
  | string s =>
    obtain ⟨s, rfl⟩ := Option.isSome_iff_exists.1 h
    exact ⟨_, _, rfl, by decide, by decide, by decide⟩
  | null | bool | natural | number | cut => simp [isPlain] at h

theorem atom_quote (s : String) (rest : List Char) :
    atom (quote s rest) = some (.string (some s), rest) := by
  change (quoted (s.toList.foldr quoteChar ('"' :: rest))).map _ = _
  rw [quoted_quote]
  rfl

theorem value_quote (fuel room : Nat) (s : String) (rest : List Char) :
    value (fuel + 1) room (quote s rest) = (.string (some s), some rest) := by
  have hatom := atom_quote s rest
  rw [quote] at hatom
  rw [value, quote, skipSpace_of_not_isSpace (by decide)]
  simp [hatom]

theorem value_bracket_eq (fuel room : Nat) (cs : List Char) :
    value (fuel + 1) (room + 1) ('[' :: cs) = match skipSpace cs with
      | ']' :: cs => (Json.array [], some cs)
      | _ => (.array (items fuel room cs).1, (items fuel room cs).2) := by
  rw [value, skipSpace_of_not_isSpace (by decide)]
  rfl

/-- An array that is not empty is its items. -/
theorem value_bracket {fuel room : Nat} {cs : List Char}
    (h : ∀ rest, skipSpace cs ≠ ']' :: rest) :
    value (fuel + 1) (room + 1) ('[' :: cs)
      = (.array (items fuel room cs).1, (items fuel room cs).2) := by
  rw [value_bracket_eq]
  split
  · rename_i rest heq
    exact absurd heq (h rest)
  · rfl

theorem value_brace_eq (fuel room : Nat) (cs : List Char) :
    value (fuel + 1) (room + 1) ('{' :: cs) = match skipSpace cs with
      | '}' :: cs => (Json.object [], some cs)
      | _ => (.object (fields fuel room cs).1, (fields fuel room cs).2) := by
  rw [value, skipSpace_of_not_isSpace (by decide)]
  rfl

/-- An object that is not empty is its fields. -/
theorem value_brace {fuel room : Nat} {cs : List Char}
    (h : ∀ rest, skipSpace cs ≠ '}' :: rest) :
    value (fuel + 1) (room + 1) ('{' :: cs)
      = (.object (fields fuel room cs).1, (fields fuel room cs).2) := by
  rw [value_brace_eq]
  split
  · rename_i rest heq
    exact absurd heq (h rest)
  · rfl

/-- Where there is no room, an array or an object is not read. -/
theorem value_of_no_room (fuel : Nat) {c : Char} (hc : c = '[' ∨ c = '{') (cs : List Char) :
    value fuel 0 (c :: cs) = (.cut, none) := by
  cases fuel with
  | zero => rw [value]
  | succ fuel =>
    rcases hc with rfl | rfl <;> rw [value, skipSpace_of_not_isSpace (by decide)] <;> rfl

theorem items_last {fuel room : Nat} {cs rest : List Char} {item : Json}
    (h : value fuel room cs = (item, some rest)) {after : List Char}
    (hrest : skipSpace rest = ']' :: after) :
    items (fuel + 1) room cs = ([item], some after) := by
  rw [items, h]
  simp only [hrest]

theorem items_comma {fuel room : Nat} {cs rest : List Char} {item : Json}
    (h : value fuel room cs = (item, some (',' :: rest))) :
    items (fuel + 1) room cs
      = (item :: (items fuel room rest).1, (items fuel room rest).2) := by
  rw [items, h]
  simp only [skipSpace_of_not_isSpace (show isSpace ',' = false by decide)]

theorem items_cut {fuel room : Nat} {cs : List Char} (h : (value fuel room cs).2 = none) :
    (items (fuel + 1) room cs).2 = none := by
  rw [items]
  rcases hv : value fuel room cs with ⟨item, _ | rest⟩
  · rfl
  · rw [hv] at h
    cases h

theorem fieldName_quote (name : String) (rest : List Char) :
    fieldName (quote name (':' :: rest)) = some (some name, rest) := by
  rw [fieldName, quote, skipSpace_of_not_isSpace (by decide)]
  change ((quoted (name.toList.foldr quoteChar ('"' :: ':' :: rest))).bind _) = _
  rw [quoted_quote]
  rfl

theorem fieldName_skipSpace {cs cs' : List Char} (h : skipSpace cs = skipSpace cs') :
    fieldName cs = fieldName cs' := by
  rw [fieldName, fieldName, h]

theorem fields_last {fuel room : Nat} {cs more rest : List Char} {name : Option String}
    {found : Json} (hname : fieldName cs = some (name, more))
    (h : value fuel room more = (found, some rest)) {after : List Char}
    (hrest : skipSpace rest = '}' :: after) :
    fields (fuel + 1) room cs = ([(name, found)], some after) := by
  rw [fields, hname]
  simp only [h, hrest]

theorem fields_comma {fuel room : Nat} {cs more rest : List Char} {name : Option String}
    {found : Json} (hname : fieldName cs = some (name, more))
    (h : value fuel room more = (found, some (',' :: rest))) :
    fields (fuel + 1) room cs
      = ((name, found) :: (fields fuel room rest).1, (fields fuel room rest).2) := by
  rw [fields, hname]
  simp only [h, skipSpace_of_not_isSpace (show isSpace ',' = false by decide)]

theorem fields_cut {fuel room : Nat} {cs more : List Char} {name : Option String}
    (hname : fieldName cs = some (name, more)) (h : (value fuel room more).2 = none) :
    fields (fuel + 1) room cs = ([(name, (value fuel room more).1)], none) := by
  rw [fields, hname]
  rcases hv : value fuel room more with ⟨found, _ | rest⟩
  · simp only [hv]
  · rw [hv] at h
    cases h

theorem value_item (fuel room level : Nat) (item : Json) (items : List Json) (rest : List Char) :
    value fuel room (prettyItems level (item :: items) rest)
      = value fuel room (item.prettyTo level (itemsTail level items rest)) :=
  value_skipSpace _ _ (by rw [prettyItems_cons, skipSpace_newLine])

theorem fieldName_field (level : Nat) (name : String) (value : Json)
    (fields : List (Option String × Json)) (rest : List Char) :
    fieldName (prettyFields level ((some name, value) :: fields) rest)
      = some (some name, ' ' :: value.prettyTo level (fieldsTail level fields rest)) := by
  rw [prettyFields_cons, fieldName_skipSpace (skipSpace_newLine _ _), Option.getD_some,
    fieldName_quote]

theorem value_blank (fuel room : Nat) (cs : List Char) :
    value fuel room (' ' :: cs) = value fuel room cs :=
  value_skipSpace _ _ rfl

theorem skipSpace_prettyItems_ne {level : Nat} {items : List Json} (hne : items ≠ [])
    (h : itemsPlain items = true) (rest after : List Char) :
    skipSpace (prettyItems level items rest) ≠ ']' :: after := by
  match items with
  | [] => exact absurd rfl hne
  | item :: items =>
    rw [itemsPlain, Bool.and_eq_true] at h
    obtain ⟨c, cs, hcs, hspace, hbracket, -⟩ :=
      prettyTo_eq_cons level h.1 (itemsTail level items rest)
    rw [prettyItems_cons, skipSpace_newLine, hcs, skipSpace_of_not_isSpace hspace]
    exact fun heq => hbracket (List.cons.inj heq).1

theorem skipSpace_prettyFields_ne {level : Nat} {fields : List (Option String × Json)}
    (hne : fields ≠ []) (rest after : List Char) :
    skipSpace (prettyFields level fields rest) ≠ '}' :: after := by
  match fields with
  | [] => exact absurd rfl hne
  | (name, value) :: fields =>
    rw [prettyFields_cons, skipSpace_newLine, quote, skipSpace_of_not_isSpace (by decide)]
    exact fun heq => absurd (List.cons.inj heq).1 (by decide)

mutual

/-- A plain value is read back from its lines if there is room for its levels. -/
theorem value_prettyTo (level : Nat) : ∀ (value : Json) (fuel room : Nat) (rest : List Char),
    value.isPlain = true → value.depth ≤ room → (value.prettyTo level rest).length ≤ fuel →
      Grammar.value fuel room (value.prettyTo level rest) = (value, some rest)
  | .string s, fuel, room, rest, hplain, hroom, hfuel => by
    obtain ⟨s, rfl⟩ := Option.isSome_iff_exists.1 hplain
    obtain ⟨fuel, rfl⟩ : ∃ n, fuel = n + 1 :=
      ⟨fuel - 1, by simp only [prettyTo, scalar, quote, List.length_cons] at hfuel; omega⟩
    exact value_quote fuel room s rest
  | .array [], fuel, room, rest, hplain, hroom, hfuel => by
    simp only [prettyTo, depth, List.isEmpty_nil, if_true, List.length_cons] at hroom hfuel ⊢
    obtain ⟨fuel, rfl⟩ : ∃ n, fuel = n + 1 := ⟨fuel - 1, by omega⟩
    obtain ⟨room, rfl⟩ : ∃ n, room = n + 1 := ⟨room - 1, by omega⟩
    rw [Grammar.value, skipSpace_of_not_isSpace (by decide)]
    rfl
  | .object [], fuel, room, rest, hplain, hroom, hfuel => by
    simp only [prettyTo, depth, List.isEmpty_nil, if_true, List.length_cons] at hroom hfuel ⊢
    obtain ⟨fuel, rfl⟩ : ∃ n, fuel = n + 1 := ⟨fuel - 1, by omega⟩
    obtain ⟨room, rfl⟩ : ∃ n, room = n + 1 := ⟨room - 1, by omega⟩
    rw [Grammar.value, skipSpace_of_not_isSpace (by decide)]
    rfl
  | .array (item :: items), fuel, room, rest, hplain, hroom, hfuel => by
    have htext : (Json.array (item :: items)).prettyTo level rest
        = '[' :: prettyItems (level + 1) (item :: items) (newLine level (']' :: rest)) := by
      rw [prettyTo, List.isEmpty_cons, if_neg Bool.false_ne_true]
    rw [isPlain] at hplain
    rw [depth] at hroom
    rw [htext, List.length_cons] at hfuel
    obtain ⟨fuel, rfl⟩ : ∃ n, fuel = n + 1 := ⟨fuel - 1, by omega⟩
    obtain ⟨room, rfl⟩ : ∃ n, room = n + 1 := ⟨room - 1, by omega⟩
    rw [htext, value_bracket (skipSpace_prettyItems_ne (by simp) hplain _),
      items_prettyItems (level + 1) level (item :: items) fuel room rest (by simp) hplain
        (by omega) (by omega)]
  | .object ((name, found) :: fields), fuel, room, rest, hplain, hroom, hfuel => by
    have htext : (Json.object ((name, found) :: fields)).prettyTo level rest
        = '{' :: prettyFields (level + 1) ((name, found) :: fields)
            (newLine level ('}' :: rest)) := by
      rw [prettyTo, List.isEmpty_cons, if_neg Bool.false_ne_true]
    rw [isPlain] at hplain
    rw [depth] at hroom
    rw [htext, List.length_cons] at hfuel
    obtain ⟨fuel, rfl⟩ : ∃ n, fuel = n + 1 := ⟨fuel - 1, by omega⟩
    obtain ⟨room, rfl⟩ : ∃ n, room = n + 1 := ⟨room - 1, by omega⟩
    rw [htext, value_brace (skipSpace_prettyFields_ne (by simp) _),
      fields_prettyFields (level + 1) level ((name, found) :: fields) fuel room rest (by simp)
        hplain (by omega) (by omega)]

theorem items_prettyItems (level outer : Nat) : ∀ (items : List Json) (fuel room : Nat)
    (rest : List Char), items ≠ [] → itemsPlain items = true → itemsDepth items ≤ room →
      (prettyItems level items (newLine outer (']' :: rest))).length ≤ fuel →
        Grammar.items fuel room (prettyItems level items (newLine outer (']' :: rest)))
          = (items, some rest)
  | [], _, _, _, hne, _, _, _ => absurd rfl hne
  | item :: items, fuel, room, rest, _, hplain, hroom, hfuel => by
    rw [itemsPlain, Bool.and_eq_true] at hplain
    rw [itemsDepth] at hroom
    rw [prettyItems_cons] at hfuel
    have hline := length_le_newLine level
      (item.prettyTo level (itemsTail level items (newLine outer (']' :: rest))))
    obtain ⟨fuel, rfl⟩ : ∃ n, fuel = n + 1 := ⟨fuel - 1, by omega⟩
    have hitem := value_prettyTo level item fuel room
      (itemsTail level items (newLine outer (']' :: rest))) hplain.1 (by omega) (by omega)
    rw [← value_item] at hitem
    have hlength := length_le_prettyTo level item
      (itemsTail level items (newLine outer (']' :: rest)))
    have hitems := items_prettyItems level outer items fuel room rest
    match items with
    | [] =>
      refine items_last hitem ?_
      rw [itemsTail, List.isEmpty_nil, if_pos rfl, skipSpace_newLine,
        skipSpace_of_not_isSpace (by decide)]
    | next :: items =>
      rw [itemsTail_cons] at hitem hlength hfuel hline
      rw [List.length_cons] at hlength
      rw [items_comma hitem, hitems (by simp) hplain.2 (by omega) (by omega)]

theorem fields_prettyFields (level outer : Nat) : ∀ (fields : List (Option String × Json))
    (fuel room : Nat) (rest : List Char), fields ≠ [] → fieldsPlain fields = true →
      fieldsDepth fields ≤ room →
      (prettyFields level fields (newLine outer ('}' :: rest))).length ≤ fuel →
        Grammar.fields fuel room (prettyFields level fields (newLine outer ('}' :: rest)))
          = (fields, some rest)
  | [], _, _, _, hne, _, _, _ => absurd rfl hne
  | (name, value) :: fields, fuel, room, rest, _, hplain, hroom, hfuel => by
    rw [fieldsPlain, Bool.and_eq_true, Bool.and_eq_true] at hplain
    obtain ⟨⟨hname, hvalue⟩, hplain⟩ := hplain
    obtain ⟨name, rfl⟩ := Option.isSome_iff_exists.1 hname
    rw [fieldsDepth] at hroom
    rw [prettyFields_cons] at hfuel
    have hline := length_le_newLine level (quote name
      (':' :: ' ' :: value.prettyTo level (fieldsTail level fields (newLine outer ('}' :: rest)))))
    have hquote := length_lt_quote name
      (':' :: ' ' :: value.prettyTo level (fieldsTail level fields (newLine outer ('}' :: rest))))
    simp only [Option.getD_some, List.length_cons] at hfuel hquote
    obtain ⟨fuel, rfl⟩ : ∃ n, fuel = n + 1 := ⟨fuel - 1, by omega⟩
    have hfound := value_prettyTo level value fuel room
      (fieldsTail level fields (newLine outer ('}' :: rest))) hvalue (by omega) (by omega)
    rw [← value_blank] at hfound
    have hlength := length_le_prettyTo level value
      (fieldsTail level fields (newLine outer ('}' :: rest)))
    have hfields := fields_prettyFields level outer fields fuel room rest
    match fields with
    | [] =>
      refine fields_last (fieldName_field ..) hfound ?_
      rw [fieldsTail, List.isEmpty_nil, if_pos rfl, skipSpace_newLine,
        skipSpace_of_not_isSpace (by decide)]
    | next :: fields =>
      rw [fieldsTail_cons] at hfound hlength hfuel hline hquote
      rw [List.length_cons] at hlength
      rw [fields_comma (fieldName_field ..) hfound, hfields (by simp) hplain (by omega)
        (by omega)]

end

/-- A plain value is what its text holds, if there is room for its levels. -/
theorem ofText_pretty {value : Json} {room : Nat} (hplain : value.isPlain = true)
    (hroom : value.depth ≤ room) : ofText room value.pretty.toList = (value, true) := by
  rw [pretty, String.toList_ofList]
  unfold ofText
  rw [value_prettyTo 0 value _ room [] hplain hroom (by omega)]
  rfl

end Landmark.Json
