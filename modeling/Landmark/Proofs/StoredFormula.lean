import Mathlib.Tactic.Common
import Landmark.Formula.Stored
import Landmark.Proofs.JsonReading

/-!
# The stored form of formulas holds the formula

A formula is what its JSON value holds, at the root and below (`read_toJson`), and it has as many
levels there as it is high (`depth_toJson`). Conversely a formula that any JSON value holds is no
higher than the value is deep (`height_le_of_read`), since a part that is a formula is a level
below the formula around it.
-/

namespace Landmark.Formula

theorem isPlain_toJson (formula : Formula) : formula.toJson.isPlain = true := by
  induction formula with
  | constant value => rfl
  | pattern name => rfl
  | unary operator value operand ih =>
    cases value <;> simpa [toJson, Json.isPlain, Json.fieldsPlain, Json.field, Json.field?,
      Json.text] using ih
  | binary operator target value ihTarget ihValue =>
    simp [toJson, Json.isPlain, Json.fieldsPlain, Json.field, Json.text, ihTarget, ihValue]

theorem depth_toJson (formula : Formula) : formula.toJson.depth = formula.height := by
  induction formula with
  | constant value => rfl
  | pattern name => rfl
  | unary operator value operand ih =>
    cases value <;> simp [toJson, Json.depth, Json.fieldsDepth, Json.field, Json.field?,
      Json.text, height, ih]
  | binary operator target value ihTarget ihValue =>
    simp [toJson, Json.depth, Json.fieldsDepth, Json.field, Json.text, height, ihTarget, ihValue]

/-- The kind and the fields of a formula, as parts. -/
def parts : Formula → List (Option String × Part)
  | .constant value => [(some kindField, .text Kind.constant.name), (some "value", .text value)]
  | .pattern name => [(some kindField, .text Kind.pattern.name), (some "name", .text name)]
  | .unary operator value operand =>
    [(some kindField, .text Kind.unary.name), (some "operator", .text operator)]
      ++ (value.map fun s => (some "value", Part.text s)).toList
      ++ [(some "operand", .formula operand)]
  | .binary operator target value =>
    [(some kindField, .text Kind.binary.name), (some "operator", .text operator),
      (some "target", .formula target), (some "value", .formula value)]

/-- A formula is put together from its parts. -/
theorem ofFields_parts (nested : Bool) (formula : Formula) :
    ofFields nested formula.parts = some formula := by
  cases formula with
  | constant value => rfl
  | pattern name => rfl
  | unary operator value operand => cases value <;> rfl
  | binary operator target value => rfl

theorem toPart_of_fields {formula : Formula} {fields : List (Option String × Json)}
    (h : fieldParts fields = formula.parts) : toPart (.object fields) = .formula formula := by
  rw [toPart, h, ofFields_parts, Part.ofFormula?]

/-- A formula is stored as an object whose fields are its parts. -/
theorem exists_fields (formula : Formula) :
    ∃ fields, formula.toJson = .object fields ∧ fieldParts fields = formula.parts := by
  induction formula with
  | constant value => exact ⟨_, rfl, rfl⟩
  | pattern name => exact ⟨_, rfl, rfl⟩
  | unary operator value operand ih =>
    obtain ⟨fields, hjson, hfields⟩ := ih
    have hpart := toPart_of_fields hfields
    rw [← hjson] at hpart
    refine ⟨_, rfl, ?_⟩
    cases value with
    | none =>
      change [(some kindField, Part.text Kind.unary.name), (some "operator", .text operator),
        (some "operand", toPart operand.toJson)] = _
      rw [hpart]
      rfl
    | some value =>
      change [(some kindField, Part.text Kind.unary.name), (some "operator", .text operator),
        (some "value", .text value), (some "operand", toPart operand.toJson)] = _
      rw [hpart]
      rfl
  | binary operator target value ihTarget ihValue =>
    obtain ⟨targetFields, htarget, htargetFields⟩ := ihTarget
    obtain ⟨valueFields, hvalue, hvalueFields⟩ := ihValue
    have htargetPart := toPart_of_fields htargetFields
    have hvaluePart := toPart_of_fields hvalueFields
    rw [← htarget] at htargetPart
    rw [← hvalue] at hvaluePart
    refine ⟨_, rfl, ?_⟩
    change [(some kindField, Part.text Kind.binary.name), (some "operator", .text operator),
      (some "target", toPart target.toJson), (some "value", toPart value.toJson)] = _
    rw [htargetPart, hvaluePart]
    rfl

/-- A formula is what its JSON value holds. -/
theorem read_toJson (formula : Formula) : read formula.toJson = .ok formula := by
  obtain ⟨fields, hjson, hfields⟩ := exists_fields formula
  rw [hjson, read, ofJson?, hfields, ofFields_parts]

/-! ## Heights -/

/-- A part is within a height if it is no formula or one that is not higher. -/
def Part.Within (n : Nat) (part : Part) : Prop :=
  ∀ formula, part = .formula formula → formula.height ≤ n

theorem within_of_lookup {n : Nat} {name : String} {part : Part} :
    ∀ {parts : List (String × Part)}, (∀ p ∈ parts, p.2.Within n) →
      parts.lookup name = some part → part.Within n
  | [], _, h => by simp at h
  | (other, found) :: parts, hall, h => by
    rw [List.lookup_cons] at h
    split at h
    · cases h
      exact hall _ List.mem_cons_self
    · exact within_of_lookup (fun p hp => hall p (List.mem_cons_of_mem _ hp)) h

theorem height_le_of_formula? {n : Nat} {part : Part} {formula : Formula} (hwithin : part.Within n)
    (h : part.formula? = some formula) : formula.height ≤ n := by
  cases part with
  | formula value =>
    cases h
    exact hwithin _ rfl
  | text | absent | natural | other => cases h

/-- A formula is one higher than the highest of its parts. -/
theorem height_le_of_ofParts {n : Nat} {kind : Kind} {parts : List (String × Part)}
    {formula : Formula} (hall : ∀ p ∈ parts, p.2.Within n)
    (h : ofParts kind parts = some formula) : formula.height ≤ n + 1 := by
  cases kind with
  | constant =>
    simp only [ofParts, Option.bind_eq_bind, Option.bind_eq_some_iff, Option.pure_def,
      Option.some.injEq] at h
    obtain ⟨_, -, _, -, rfl⟩ := h
    exact Nat.succ_le_succ (Nat.zero_le n)
  | pattern =>
    simp only [ofParts, Option.bind_eq_bind, Option.bind_eq_some_iff, Option.pure_def,
      Option.some.injEq] at h
    obtain ⟨_, -, _, -, rfl⟩ := h
    exact Nat.succ_le_succ (Nat.zero_le n)
  | unary =>
    simp only [ofParts, Option.bind_eq_bind, Option.bind_eq_some_iff, Option.pure_def,
      Option.some.injEq] at h
    obtain ⟨_, -, _, -, _, -, part, hpart, operand, hoperand, rfl⟩ := h
    exact Nat.succ_le_succ (height_le_of_formula? (within_of_lookup hall hpart) hoperand)
  | binary =>
    simp only [ofParts, Option.bind_eq_bind, Option.bind_eq_some_iff, Option.pure_def,
      Option.some.injEq] at h
    obtain ⟨_, -, _, -, first, hfirst, target, htarget, second, hsecond, value, hvalue, rfl⟩ := h
    exact Nat.succ_le_succ (max_le
      (height_le_of_formula? (within_of_lookup hall hfirst) htarget)
      (height_le_of_formula? (within_of_lookup hall hsecond) hvalue))

theorem declared_cons_eq_some_iff {names : List String} {name : String} {part : Part}
    {parts : List (Option String × Part)} {own : List (String × Part)} :
    declared names ((some name, part) :: parts) = some own
      ↔ name ∈ names ∧ ∃ rest, declared (names.erase name) parts = some rest
        ∧ own = (name, part) :: rest := by
  rw [declared]
  split_ifs with hname
  · refine Option.bind_eq_some_iff.trans ?_
    simp [hname, eq_comm]
  · simp [hname]

theorem within_of_declared {n : Nat} : ∀ {names : List String}
    {parts : List (Option String × Part)} {found : List (String × Part)},
      (∀ p ∈ parts, p.2.Within n) → declared names parts = some found → ∀ p ∈ found, p.2.Within n
  | names, [], found, _, h => by
    cases h
    simp
  | names, (none, _) :: _, found, _, h => by cases h
  | names, (some name, part) :: parts, found, hall, h => by
    obtain ⟨-, rest, hrest, rfl⟩ := declared_cons_eq_some_iff.1 h
    intro p hp
    rcases List.mem_cons.1 hp with rfl | hp
    · exact hall _ List.mem_cons_self
    · exact within_of_declared (fun q hq => hall q (List.mem_cons_of_mem _ hq)) hrest p hp

theorem height_le_of_ofFields {n : Nat} {nested : Bool} {parts : List (Option String × Part)}
    {formula : Formula} (hall : ∀ p ∈ parts, p.2.Within n)
    (h : ofFields nested parts = some formula) : formula.height ≤ n + 1 := by
  unfold ofFields at h
  split at h
  · simp only [Option.bind_eq_bind, Option.bind_eq_some_iff] at h
    obtain ⟨kind, -, found, hfound, hparts⟩ := h
    exact height_le_of_ofParts
      (within_of_declared (fun p hp => hall p (List.mem_filter.1 hp).1) hfound) hparts
  · cases h

theorem height_le_of_ofItems {n : Nat} {nested : Bool} {parts : List Part} {formula : Formula}
    (hall : ∀ p ∈ parts, p.Within n) (h : ofItems nested parts = some formula) :
    formula.height ≤ n + 1 := by
  match parts with
  | [] => cases h
  | tag :: parts =>
    simp only [ofItems, Option.bind_eq_bind, Option.bind_eq_some_iff] at h
    obtain ⟨kind, -, hparts⟩ := h
    split_ifs at hparts
    refine height_le_of_ofParts (fun p hp => ?_) hparts
    exact hall _ (List.mem_cons_of_mem _ (List.of_mem_zip (a := p.1) (b := p.2) hp).2)

mutual

theorem within_toPart : ∀ value : Json, (toPart value).Within value.depth
  | .array items => by
    intro formula h
    rw [toPart] at h
    rcases hitems : ofItems true (itemParts items) with _ | found <;> rw [hitems] at h
    · cases h
    · cases h
      exact height_le_of_ofItems (within_itemParts items) hitems
  | .object fields => by
    intro formula h
    rw [toPart] at h
    rcases hfields : ofFields true (fieldParts fields) with _ | found <;> rw [hfields] at h
    · cases h
    · cases h
      exact height_le_of_ofFields (within_fieldParts fields) hfields
  | .null | .natural _ | .string (some _) | .string none | .bool _ | .number | .cut => by
    intro formula h
    cases h

theorem within_itemParts : ∀ items : List Json,
    ∀ part ∈ itemParts items, part.Within (Json.itemsDepth items)
  | [], part, hpart => by cases hpart
  | item :: items, part, hpart => by
    rw [itemParts] at hpart
    rcases List.mem_cons.1 hpart with rfl | hpart
    · exact fun formula h => le_trans (within_toPart item formula h) (le_max_left _ _)
    · exact fun formula h =>
        le_trans (within_itemParts items part hpart formula h) (le_max_right _ _)

theorem within_fieldParts : ∀ fields : List (Option String × Json),
    ∀ part ∈ fieldParts fields, part.2.Within (Json.fieldsDepth fields)
  | [], part, hpart => by cases hpart
  | (name, value) :: fields, part, hpart => by
    rw [fieldParts] at hpart
    rcases List.mem_cons.1 hpart with rfl | hpart
    · exact fun formula h => le_trans (within_toPart value formula h) (le_max_left _ _)
    · exact fun formula h =>
        le_trans (within_fieldParts fields part hpart formula h) (le_max_right _ _)

end

/-- A formula that a JSON value holds is no higher than the value is deep. -/
theorem height_le_of_read {value : Json} {formula : Formula} (h : read value = .ok formula) :
    formula.height ≤ value.depth := by
  rw [read] at h
  rcases hjson : ofJson? value with _ | found <;> rw [hjson] at h
  · cases h
  · cases h
    cases value with
    | array items => exact height_le_of_ofItems (within_itemParts items) hjson
    | object fields => exact height_le_of_ofFields (within_fieldParts fields) hjson
    | null | bool | natural | number | string | cut => cases hjson

end Landmark.Formula
