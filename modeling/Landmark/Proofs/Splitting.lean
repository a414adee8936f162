import Mathlib.Algebra.GroupWithZero.Nat
import Mathlib.Tactic.Common
import Landmark.Text.Pieces

/-!
# Splitting what was joined

A text that was joined from tokens is split into these tokens again if the separator shows up
nowhere in a token, nor across its end, when it stands behind it (`Uncut`): `splitOn_intercalate`.
The other way round, whatever a text is split into gives the text when it is joined
(`intercalate_splitOn`), and each piece before a separator is uncut (`uncut_of_splitOn`), so that
the pieces of a text are told by these two properties.
-/

namespace Landmark.Text

variable {separator : List Char}

/-- With a separator behind it, the text up to there holds no occurrence of the separator that
begins earlier. -/
def Uncut (separator text : List Char) : Prop :=
  ∀ j < text.length, ¬ separator <+: (text ++ separator).drop j

instance (separator text : List Char) : Decidable (Uncut separator text) :=
  inferInstanceAs (Decidable (∀ j < text.length, ¬ separator <+: (text ++ separator).drop j))

-- The separator is not in the text, but it begins with the last character there.
example : ¬ Uncut "aa".toList "ba".toList := by decide

namespace Uncut

variable {text : List Char}

theorem nil (separator : List Char) : Uncut separator [] := by
  intro j hj
  simp at hj

/-- A text without the first character of the separator is uncut. -/
theorem of_notMem {c : Char} {cs : List Char} (h : c ∉ text) : Uncut (c :: cs) text := by
  rintro j hj ⟨rest, hrest⟩
  have hfirst : (text ++ c :: cs)[j]? = some c := by
    rw [← Nat.add_zero j, ← List.getElem?_drop, ← hrest]
    rfl
  rw [List.getElem?_append_left hj] at hfirst
  exact h (List.mem_of_getElem? hfirst)

/-- A text without characters of the separator is uncut. -/
theorem of_disjoint (hseparator : separator ≠ []) (h : ∀ c ∈ separator, c ∉ text) :
    Uncut separator text := by
  obtain ⟨c, cs, rfl⟩ := List.exists_cons_of_ne_nil hseparator
  exact .of_notMem (h c List.mem_cons_self)

theorem not_prefix_drop (h : Uncut separator text) {j : Nat} (hj : j < text.length) :
    ¬ separator <+: text.drop j := fun hprefix =>
  h j hj (by
    rw [List.drop_append_of_le_length (Nat.le_of_lt hj)]
    exact hprefix.trans (List.prefix_append _ _))

/-- What comes behind the separator makes no difference. -/
theorem not_prefix_drop_append (h : Uncut separator text) (rest : List Char) {j : Nat}
    (hj : j < text.length) : ¬ separator <+: (text ++ (separator ++ rest)).drop j := by
  intro hprefix
  refine h j hj ?_
  rw [← List.append_assoc, List.drop_append_of_le_length (by simp; omega)] at hprefix
  exact List.prefix_of_prefix_length_le hprefix (List.prefix_append _ _) (by simp; omega)

end Uncut

/-! ## Joined texts -/

theorem splitOn_ne_nil (separator text : List Char) : splitOn separator text ≠ [] := by
  fun_cases splitOn separator text <;> simp

theorem splitOn_separator_append (hseparator : separator ≠ []) (rest : List Char) :
    splitOn separator (separator ++ rest) = [] :: splitOn separator rest := by
  obtain ⟨c, cs, rfl⟩ := List.exists_cons_of_ne_nil hseparator
  rw [List.cons_append, splitOn, if_pos (by simp)]
  simp

/-- A text in which no separator begins stands at the front of the first piece. -/
theorem splitOn_append {rest piece : List Char} {more : List (List Char)}
    (hrest : splitOn separator rest = piece :: more) :
    ∀ text : List Char, (∀ j < text.length, ¬ separator <+: (text ++ rest).drop j) →
      splitOn separator (text ++ rest) = (text ++ piece) :: more
  | [], _ => hrest
  | c :: text, h => by
    have hfirst : separator.isPrefixOf (c :: (text ++ rest)) = false := by
      simpa [← List.isPrefixOf_iff_prefix] using h 0 (by simp)
    have htext := splitOn_append hrest text fun j hj => by
      simpa using h (j + 1) (by simpa using hj)
    rw [List.cons_append, splitOn, hfirst, htext]
    rfl

/-- A joined text is split into the texts that were joined. -/
theorem splitOn_intercalate (hseparator : separator ≠ []) :
    ∀ tokens : List (List Char), tokens ≠ [] → (∀ token ∈ tokens, Uncut separator token) →
      splitOn separator (separator.intercalate tokens) = tokens
  | [], h, _ => absurd rfl h
  | [token], _, h => by
    have huncut := h token List.mem_cons_self
    have hend : splitOn separator [] = [[]] := by rw [splitOn]
    have hsplit := splitOn_append hend token fun j hj => by
      simpa using huncut.not_prefix_drop hj
    simpa using hsplit
  | token :: next :: tokens, _, h => by
    have huncut := h token List.mem_cons_self
    have hrest := splitOn_intercalate hseparator (next :: tokens) (by simp) fun t ht =>
      h t (List.mem_cons_of_mem _ ht)
    have hbehind := splitOn_separator_append hseparator (separator.intercalate (next :: tokens))
    have hsplit := splitOn_append hbehind token fun j hj => huncut.not_prefix_drop_append _ hj
    rw [List.intercalate_cons_cons, List.append_assoc, hsplit, hrest, List.append_nil]

/-- A text that was joined from tokens, none of them empty, has these tokens as its pieces. -/
theorem pieces_intercalate {separator : String} (hseparator : separator.toList ≠ [])
    {tokens : List String} (hne : ∀ token ∈ tokens, token.toList ≠ [])
    (h : ∀ token ∈ tokens, Uncut separator.toList token.toList) :
    pieces separator (separator.intercalate tokens) = tokens := by
  have hkept : (tokens.map String.toList).filter (fun piece => !piece.isEmpty)
      = tokens.map String.toList := by
    refine List.filter_eq_self.2 fun piece hpiece => ?_
    obtain ⟨token, htoken, rfl⟩ := List.mem_map.1 hpiece
    simpa using hne token htoken
  have hsplit : (splitOn separator.toList (separator.intercalate tokens).toList).filter
      (fun piece => !piece.isEmpty) = tokens.map String.toList := by
    rw [String.toList_intercalate]
    rcases eq_or_ne tokens [] with rfl | htokens
    · rw [List.map_nil, List.intercalate_nil, splitOn]
      rfl
    · rw [splitOn_intercalate hseparator _ (by simpa using htokens) (by simpa using h), hkept]
  rw [pieces, hsplit, List.map_map]
  simp [Function.comp_def]

/-! ## Split texts -/

/-- The pieces of a text, joined again. -/
theorem intercalate_splitOn (hseparator : separator ≠ []) (text : List Char) :
    separator.intercalate (splitOn separator text) = text := by
  fun_induction splitOn separator text with
  | case1 => simp
  | case2 c cs hprefix ih =>
    obtain ⟨rest, hrest⟩ := List.isPrefixOf_iff_prefix.1 hprefix
    have hdrop : cs.drop (separator.length - 1) = rest := by
      obtain ⟨d, ds, rfl⟩ := List.exists_cons_of_ne_nil hseparator
      obtain ⟨-, rfl⟩ := List.cons.inj hrest
      simp
    rw [hdrop] at ih ⊢
    obtain ⟨piece, more, hmore⟩ := List.exists_cons_of_ne_nil (splitOn_ne_nil separator rest)
    rw [hmore] at ih ⊢
    rw [List.intercalate_cons_cons, ih, List.nil_append, hrest]
  | case3 c cs hprefix hnil ih => exact absurd hnil (splitOn_ne_nil separator cs)
  | case4 c cs hprefix piece more hmore ih =>
    rw [hmore] at ih
    rw [← ih]
    cases more <;> simp

/-- Each piece that has another one behind it is uncut. -/
theorem uncut_of_splitOn (hseparator : separator ≠ []) :
    ∀ {text piece next : List Char} {more : List (List Char)},
      splitOn separator text = piece :: next :: more → Uncut separator piece
  | [], piece, next, more, h => by
    rw [splitOn] at h
    cases h
  | c :: cs, piece, next, more, h => by
    rw [splitOn] at h
    split_ifs at h with hprefix
    · obtain ⟨rfl, -⟩ := List.cons.inj h
      exact .nil separator
    · rcases hcs : splitOn separator cs with _ | ⟨tail, others⟩ <;> rw [hcs] at h <;> cases h
      have htail := uncut_of_splitOn hseparator hcs
      have hjoined := intercalate_splitOn hseparator cs
      rw [hcs, List.intercalate_cons_cons] at hjoined
      rintro (_ | j) hj hearly
      · refine hprefix (List.isPrefixOf_iff_prefix.2 (hearly.trans ?_))
        rw [← hjoined]
        exact ⟨_, by simp; rfl⟩
      · exact htail j (by simpa using hj) (by simpa using hearly)

/-- The length of a joined text, with one separator for each of its parts. -/
theorem length_intercalate (separator : List Char) : ∀ parts : List (List Char), parts ≠ [] →
    (separator.intercalate parts).length + separator.length
      = (parts.map List.length).sum + parts.length * separator.length
  | [], h => absurd rfl h
  | [part], _ => by simp
  | part :: next :: parts, _ => by
    have ih := length_intercalate separator (next :: parts) (by simp)
    rw [List.intercalate_cons_cons]
    simp only [List.length_append, List.map_cons, List.sum_cons, List.length_cons] at ih ⊢
    rw [Nat.add_mul, Nat.one_mul]
    omega

end Landmark.Text
