import Landmark.Proofs.JsonReading

/-!
# The levels of what is read

The reading of a value with more levels than there is room for is cut off at the first item or field
that is too deep (`value_prettyTo_of_lt_depth`); of an object, all fields before that one are read
(`ofText_pretty_of_lt_depth`). Whatever the text is, no value that is read has more levels than
there was room for (`depth_ofText_le`).
-/

namespace Landmark.Json

open Grammar

mutual

/-- The reading of a plain value is cut off if it has more levels than there is room for. -/
theorem value_prettyTo_of_lt_depth (level : Nat) :
    ∀ (value : Json) (fuel room : Nat) (rest : List Char), value.isPlain = true →
      room < value.depth → (value.prettyTo level rest).length ≤ fuel →
        (Grammar.value fuel room (value.prettyTo level rest)).2 = none
  | .array [], fuel, room, rest, hplain, hroom, hfuel
  | .object [], fuel, room, rest, hplain, hroom, hfuel => by
    simp only [depth, itemsDepth, fieldsDepth, Nat.zero_add, Nat.lt_one_iff] at hroom
    subst hroom
    simp only [prettyTo, List.isEmpty_nil, if_true]
    rw [value_of_no_room fuel (by simp)]
  | .array (item :: items), fuel, room, rest, hplain, hroom, hfuel => by
    have htext : (Json.array (item :: items)).prettyTo level rest
        = '[' :: prettyItems (level + 1) (item :: items) (newLine level (']' :: rest)) := by
      rw [prettyTo, List.isEmpty_cons, if_neg Bool.false_ne_true]
    rw [isPlain] at hplain
    rw [depth] at hroom
    rw [htext, List.length_cons] at hfuel
    rw [htext]
    obtain ⟨fuel, rfl⟩ : ∃ n, fuel = n + 1 := ⟨fuel - 1, by omega⟩
    cases room with
    | zero => rw [value_of_no_room _ (.inl rfl)]
    | succ room =>
      rw [value_bracket (skipSpace_prettyItems_ne (by simp) hplain _)]
      exact items_prettyItems_of_lt_depth (level + 1) level (item :: items) fuel room rest hplain
        (by omega) (by omega)
  | .object ((name, found) :: fields), fuel, room, rest, hplain, hroom, hfuel => by
    have htext : (Json.object ((name, found) :: fields)).prettyTo level rest
        = '{' :: prettyFields (level + 1) ((name, found) :: fields)
            (newLine level ('}' :: rest)) := by
      rw [prettyTo, List.isEmpty_cons, if_neg Bool.false_ne_true]
    rw [isPlain] at hplain
    rw [depth] at hroom
    rw [htext, List.length_cons] at hfuel
    rw [htext]
    obtain ⟨fuel, rfl⟩ : ∃ n, fuel = n + 1 := ⟨fuel - 1, by omega⟩
    cases room with
    | zero => rw [value_of_no_room _ (.inr rfl)]
    | succ room =>
      rw [value_brace (skipSpace_prettyFields_ne (by simp) _)]
      obtain ⟨before, name, _, _, found, -, -, hcut⟩ := fields_prettyFields_of_lt_depth (level + 1)
        level ((name, found) :: fields) fuel room rest hplain (by omega) (by omega)
      rw [hcut]

theorem items_prettyItems_of_lt_depth (level outer : Nat) :
    ∀ (items : List Json) (fuel room : Nat) (rest : List Char), itemsPlain items = true →
      room < itemsDepth items →
      (prettyItems level items (newLine outer (']' :: rest))).length ≤ fuel →
        (Grammar.items fuel room (prettyItems level items (newLine outer (']' :: rest)))).2 = none
  | item :: items, fuel, room, rest, hplain, hroom, hfuel => by
    rw [itemsPlain, Bool.and_eq_true] at hplain
    rw [itemsDepth] at hroom
    rw [prettyItems_cons] at hfuel
    have hline := length_le_newLine level
      (item.prettyTo level (itemsTail level items (newLine outer (']' :: rest))))
    obtain ⟨fuel, rfl⟩ : ∃ n, fuel = n + 1 := ⟨fuel - 1, by omega⟩
    have hlength := length_le_prettyTo level item
      (itemsTail level items (newLine outer (']' :: rest)))
    have hitems := items_prettyItems_of_lt_depth level outer items fuel room rest hplain.2
    by_cases hdeep : room < item.depth
    · refine items_cut ?_
      rw [value_item]
      exact value_prettyTo_of_lt_depth level item fuel room _ hplain.1 hdeep (by omega)
    · have hitem := value_prettyTo level item fuel room
        (itemsTail level items (newLine outer (']' :: rest))) hplain.1 (by omega) (by omega)
      rw [← value_item] at hitem
      match items with
      | [] =>
        rw [itemsDepth] at hroom
        omega
      | next :: items =>
        rw [itemsTail_cons] at hitem hlength hfuel hline
        rw [List.length_cons] at hlength
        rw [items_comma hitem]
        exact hitems (by omega) (by omega)

/-- The fields up to the first one that is too deep are read, and of that one as much as there is
room for. -/
theorem fields_prettyFields_of_lt_depth (level outer : Nat) :
    ∀ (fields : List (Option String × Json)) (fuel room : Nat) (rest : List Char),
      fieldsPlain fields = true → room < fieldsDepth fields →
      (prettyFields level fields (newLine outer ('}' :: rest))).length ≤ fuel →
        ∃ before name value after found, fields = before ++ (name, value) :: after
          ∧ room < value.depth
          ∧ Grammar.fields fuel room (prettyFields level fields (newLine outer ('}' :: rest)))
            = (before ++ [(name, found)], none)
  | (name, value) :: fields, fuel, room, rest, hplain, hroom, hfuel => by
    rw [fieldsPlain, Bool.and_eq_true, Bool.and_eq_true] at hplain
    obtain ⟨⟨hname, hvalue⟩, hplain⟩ := hplain
    obtain ⟨name, rfl⟩ := Option.isSome_iff_exists.1 hname
    rw [fieldsDepth] at hroom
    rw [prettyFields_cons] at hfuel
    have hline := length_le_newLine level (quote name
      (':' :: ' ' :: value.prettyTo level (fieldsTail level fields (newLine outer ('}' :: rest)))))
    have hquote := length_lt_quote name
      (':' :: ' ' :: value.prettyTo level (fieldsTail level fields (newLine outer ('}' :: rest))))
    simp only [Option.getD_some, List.length_cons] at hfuel hquote
    obtain ⟨fuel, rfl⟩ : ∃ n, fuel = n + 1 := ⟨fuel - 1, by omega⟩
    have hlength := length_le_prettyTo level value
      (fieldsTail level fields (newLine outer ('}' :: rest)))
    have hfields := fields_prettyFields_of_lt_depth level outer fields fuel room rest hplain
    by_cases hdeep : room < value.depth
    · refine ⟨[], some name, value, fields, _, rfl, hdeep, fields_cut (fieldName_field ..) ?_⟩
      rw [value_blank]
      exact value_prettyTo_of_lt_depth level value fuel room _ hvalue hdeep (by omega)
    · have hfound := value_prettyTo level value fuel room
        (fieldsTail level fields (newLine outer ('}' :: rest))) hvalue (by omega) (by omega)
      rw [← value_blank] at hfound
      match fields with
      | [] =>
        rw [fieldsDepth] at hroom
        omega
      | next :: fields =>
        rw [fieldsTail_cons] at hfound hlength hfuel hline hquote
        rw [List.length_cons] at hlength
        obtain ⟨before, other, deep, after, found, hsplit, hlt, hcut⟩ :=
          hfields (by omega) (by omega)
        refine ⟨(some name, value) :: before, other, deep, after, found, ?_, hlt, ?_⟩
        · rw [hsplit, List.cons_append]
        · rw [fields_comma (fieldName_field ..) hfound, hcut, List.cons_append]

end

theorem depth_unsigned {cs : List Char} {found : Json × List Char} (h : unsigned cs = some found) :
    found.1.depth = 0 := by
  simp only [unsigned, Option.bind_eq_bind, Option.bind_eq_some_iff, Option.pure_def,
    Option.some.injEq] at h
  obtain ⟨_, -, _, -, _, -, rfl⟩ := h
  dsimp only
  split_ifs <;> rfl

theorem depth_number {cs rest : List Char} {value : Json}
    (h : Grammar.number cs = some (value, rest)) : value.depth = 0 := by
  unfold Grammar.number at h
  split at h
  · obtain ⟨found, -, heq⟩ := Option.map_eq_some_iff.1 h
    cases heq
    rfl
  · exact depth_unsigned h

theorem depth_atom {cs rest : List Char} {value : Json} (h : atom cs = some (value, rest)) :
    value.depth = 0 := by
  unfold atom at h
  split at h
  · cases h
    rfl
  · cases h
    rfl
  · cases h
    rfl
  · obtain ⟨found, -, heq⟩ := Option.map_eq_some_iff.1 h
    cases heq
    rfl
  · exact depth_number h

/-- No value that is read has more levels than there was room for, be it cut off or not. -/
theorem depth_le_room : ∀ fuel,
    (∀ room cs, (Grammar.value fuel room cs).1.depth ≤ room)
      ∧ (∀ room cs, itemsDepth (items fuel room cs).1 ≤ room)
      ∧ ∀ room cs, fieldsDepth (fields fuel room cs).1 ≤ room := by
  intro fuel
  induction fuel with
  | zero =>
    refine ⟨fun room cs => ?_, fun room cs => ?_, fun room cs => ?_⟩
    · rw [Grammar.value]
      exact Nat.zero_le _
    · rw [items]
      exact Nat.zero_le _
    · rw [fields]
      exact Nat.zero_le _
  | succ fuel ih =>
    obtain ⟨ihValue, ihItems, ihFields⟩ := ih
    refine ⟨fun room cs => ?_, fun room cs => ?_, fun room cs => ?_⟩
    · rw [Grammar.value]
      split
      · split
        · exact Nat.zero_le _
        · split
          · exact Nat.succ_le_succ (Nat.zero_le _)
          · exact Nat.succ_le_succ (ihItems _ _)
      · split
        · exact Nat.zero_le _
        · split
          · exact Nat.succ_le_succ (Nat.zero_le _)
          · exact Nat.succ_le_succ (ihFields _ _)
      · split
        · rename_i hatom
          exact le_of_eq_of_le (depth_atom hatom) (Nat.zero_le _)
        · exact Nat.zero_le _
    · rw [items]
      have hvalue := ihValue room cs
      split
      · rename_i heq
        rw [heq] at hvalue
        exact max_le hvalue (Nat.zero_le _)
      · rename_i rest heq
        rw [heq] at hvalue
        split
        · exact max_le hvalue (ihItems _ _)
        · exact max_le hvalue (Nat.zero_le _)
        · exact max_le hvalue (Nat.zero_le _)
    · rw [fields]
      split
      · exact Nat.zero_le _
      · rename_i name rest hname
        have hvalue := ihValue room rest
        split
        · rename_i heq
          rw [heq] at hvalue
          exact max_le hvalue (Nat.zero_le _)
        · rename_i heq
          rw [heq] at hvalue
          split
          · exact max_le hvalue (ihFields _ _)
          · exact max_le hvalue (Nat.zero_le _)
          · exact max_le hvalue (Nat.zero_le _)

theorem depth_ofText_le (room : Nat) (cs : List Char) : (ofText room cs).1.depth ≤ room := by
  have hvalue := (depth_le_room (2 * cs.length + 2)).1 room cs
  unfold ofText
  split <;> rename_i heq <;> rw [heq] at hvalue <;> exact hvalue

/-- An object that nests too deeply is read up to the first field with too many levels, and of that
field as much as there is room for. -/
theorem ofText_pretty_of_lt_depth {fields : List (Option String × Json)} {room : Nat}
    (hplain : (Json.object fields).isPlain = true) (hroom : room < fieldsDepth fields) :
    ∃ before name value after found, fields = before ++ (name, value) :: after
      ∧ room < value.depth
      ∧ ofText (room + 1) (Json.object fields).pretty.toList
        = (.object (before ++ [(name, found)]), false) := by
  have hne : fields ≠ [] := by
    rintro rfl
    exact Nat.not_lt_zero room hroom
  have htext : (Json.object fields).prettyTo 0 []
      = '{' :: prettyFields 1 fields (newLine 0 ('}' :: [])) := by
    rw [prettyTo, if_neg (by simpa using hne)]
  obtain ⟨before, name, value, after, found, hsplit, hdeep, hcut⟩ :=
    fields_prettyFields_of_lt_depth 1 0 fields
      (2 * ((Json.object fields).prettyTo 0 []).length + 1) room [] hplain hroom
      (by rw [htext, List.length_cons]; omega)
  refine ⟨before, name, value, after, found, hsplit, hdeep, ?_⟩
  rw [pretty, String.toList_ofList, ofText]
  rw [htext] at hcut ⊢
  rw [value_brace (skipSpace_prettyFields_ne hne _), hcut]

end Landmark.Json
