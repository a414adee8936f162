import Mathlib.Data.List.Perm.Basic
import Mathlib.Tactic.Common
import Landmark.Proofs.FormulaFields
import Landmark.Proofs.JsonRoom
import Landmark.Proofs.Records

/-!
# Documents are read strictly, in any order of fields

The values inside a stored document have shapes: the document, its lists and their entries, the
findings, and the nodes of the formulas. An alteration of a document changes one object of some
shape, at any depth (`Altered`). If the fields of that object are put in another order, the same
document is read; if it gets a field that its shape does not declare, or a second one of a name, no
document is read (`Document.ofBytes_altered`). What the change of the object comes to is decided at
the object itself and carried outwards, one value at a time (`Altered.turns`).
-/

namespace Landmark

/-- What a value inside a stored document stands for. -/
inductive Shape
  | document
  | patterns
  | pattern
  | finding
  | offsets
  | offset
  | formula (nested : Bool)

/-- The fields of an object. -/
abbrev Json.Fields := List (Option String × Json)

namespace Shape

/-- What is read from the values of a shape. -/
abbrev Reading : Shape → Type
  | .document => Document
  | .patterns => List PatternEntry
  | .pattern => PatternEntry
  | .finding => Finding
  | .offsets => List OffsetEntry
  | .offset => OffsetEntry
  | .formula _ => Formula

/-- Reads a value of a shape. -/
def read : (shape : Shape) → Json → Except DocumentFault shape.Reading
  | .document => Document.schema.read
  | .patterns => Json.readList PatternEntry.schema.read
  | .pattern => PatternEntry.schema.read
  | .finding => Finding.schema.read
  | .offsets => Json.readList OffsetEntry.schema.read
  | .offset => OffsetEntry.schema.read
  | .formula nested => Formula.readAt nested

/-- The shape of the value of a field. -/
def field : Shape → String → Option Shape
  | .document, "patterns" => some .patterns
  | .document, "offsets" => some .offsets
  | .pattern, "cached" => some .finding
  | .offset, "operation" => some (.formula false)
  | .formula _, "operand" => some (.formula true)
  | .formula _, "target" => some (.formula true)
  | .formula _, "value" => some (.formula true)
  | _, _ => none

/-- The shape of an item of an array: an entry of a list, or a field of a record or of a formula
that is given by its position. -/
def item : Shape → Nat → Option Shape
  | .patterns, _ => some .pattern
  | .offsets, _ => some .offset
  | .document, index => Document.schema.names[index]?.bind document.field
  | .pattern, index => PatternEntry.schema.names[index]?.bind pattern.field
  | .offset, index => OffsetEntry.schema.names[index]?.bind offset.field
  | .formula _, _ + 1 => some (.formula true)
  | _, _ => none

/-- Whether an object with the given fields may have a field of a name. Of a formula this depends
on the kind that one of the fields tells. -/
def Declares (fields : Json.Fields) (name : String) : Shape → Prop
  | .document => name ∈ Document.schema.names
  | .pattern => name ∈ PatternEntry.schema.names
  | .finding => name ∈ Finding.schema.names
  | .offset => name ∈ OffsetEntry.schema.names
  | .formula nested => Formula.Declares nested fields name
  | .patterns | .offsets => False

/-- The same fields in another order. -/
def Reordered (_ : Shape) (fields fields' : Json.Fields) : Prop :=
  fields'.Perm fields

/-- One more field, which is not declared or has the name of another one. -/
def Extended (shape : Shape) (fields fields' : Json.Fields) : Prop :=
  ∃ before after name value, fields = before ++ after
    ∧ fields' = before ++ (name, value) :: after
    ∧ ∀ known, name = some known → ¬ shape.Declares fields known ∨ some known ∈ fields.map Prod.fst

end Shape

/-- Values of a shape that differ in one object inside them, by a change of its fields. -/
inductive Altered (change : Shape → Json.Fields → Json.Fields → Prop) : Shape → Json → Json → Prop
  | here {shape : Shape} {fields fields' : Json.Fields} (h : change shape fields fields') :
    Altered change shape (.object fields) (.object fields')
  | field {shape inner : Shape} {name : String} {before after : Json.Fields} {value value' : Json}
    (hshape : shape.field name = some inner) (h : Altered change inner value value') :
    Altered change shape (.object (before ++ (some name, value) :: after))
      (.object (before ++ (some name, value') :: after))
  | item {shape inner : Shape} {before after : List Json} {value value' : Json}
    (hshape : shape.item before.length = some inner) (h : Altered change inner value value') :
    Altered change shape (.array (before ++ value :: after)) (.array (before ++ value' :: after))

namespace Altered

variable {change : Shape → Json.Fields → Json.Fields → Prop} {shape : Shape} {value value' : Json}

theorem isCompound (h : Altered change shape value value') :
    value.IsCompound ∧ value'.IsCompound := by
  cases h <;> exact ⟨trivial, trivial⟩

end Altered

/-! ## A part of a value is altered -/

section Parts

variable {kept : Bool} {name : String} {shape inner : Shape} {value value' : Json}

theorem Document.turns_put (hshape : Shape.document.field name = some inner)
    (h : Turns kept (inner.read value) (inner.read value')) :
    Turns kept (schema.put name value) (schema.put name value') := by
  unfold Shape.field at hshape
  split at hshape <;> cases hshape
  case h_1 => exact h.map _
  case h_2 => exact h.map _
  all_goals contradiction

theorem PatternEntry.turns_put (hshape : Shape.pattern.field name = some inner)
    (hvalue : value.IsCompound) (hvalue' : value'.IsCompound)
    (h : Turns kept (inner.read value) (inner.read value')) :
    Turns kept (schema.put name value) (schema.put name value') := by
  unfold Shape.field at hshape
  split at hshape <;> cases hshape
  case h_3 => exact (h.option hvalue hvalue').map _
  all_goals contradiction

theorem OffsetEntry.turns_put (hshape : Shape.offset.field name = some inner)
    (hvalue : value.IsCompound) (hvalue' : value'.IsCompound)
    (h : Turns kept (inner.read value) (inner.read value')) :
    Turns kept (schema.put name value) (schema.put name value') := by
  unfold Shape.field at hshape
  split at hshape <;> cases hshape
  case h_4 =>
    have hread : Turns kept (Formula.read value) (Formula.read value') := by
      rw [Formula.read_eq_readAt, Formula.read_eq_readAt]
      exact h
    exact (hread.option hvalue hvalue').map _
  all_goals contradiction

theorem Shape.eq_formula_of_field {nested : Bool}
    (hshape : (Shape.formula nested).field name = some inner) : inner = .formula true := by
  unfold Shape.field at hshape
  split at hshape <;> cases hshape <;> first | rfl | contradiction

theorem Shape.turns_field (hshape : shape.field name = some inner) (hvalue : value.IsCompound)
    (hvalue' : value'.IsCompound) (h : Turns kept (inner.read value) (inner.read value'))
    (before after : Json.Fields) :
    Turns kept (shape.read (.object (before ++ (some name, value) :: after)))
      (shape.read (.object (before ++ (some name, value') :: after))) := by
  cases shape with
  | document => exact Schema.turns_field rfl (Document.turns_put hshape h)
  | pattern => exact Schema.turns_field rfl (PatternEntry.turns_put hshape hvalue hvalue' h)
  | offset => exact Schema.turns_field rfl (OffsetEntry.turns_put hshape hvalue hvalue' h)
  | patterns | offsets | finding => cases hshape
  | formula nested =>
    obtain rfl := eq_formula_of_field hshape
    exact Formula.turns_field hvalue hvalue' h

theorem Shape.field_of_item {names : List String} {index : Nat}
    (h : names[index]?.bind shape.field = some inner) (hname : names[index]? = some name) :
    shape.field name = some inner := by
  rwa [hname, Option.bind_some] at h

theorem Shape.turns_item {before after : List Json} (hshape : shape.item before.length = some inner)
    (hvalue : value.IsCompound) (hvalue' : value'.IsCompound)
    (h : Turns kept (inner.read value) (inner.read value')) :
    Turns kept (shape.read (.array (before ++ value :: after)))
      (shape.read (.array (before ++ value' :: after))) := by
  cases shape with
  | document =>
    exact Schema.turns_item rfl fun _ hname => Document.turns_put (field_of_item hshape hname) h
  | pattern =>
    exact Schema.turns_item rfl fun _ hname =>
      PatternEntry.turns_put (field_of_item hshape hname) hvalue hvalue' h
  | offset =>
    exact Schema.turns_item rfl fun _ hname =>
      OffsetEntry.turns_put (field_of_item hshape hname) hvalue hvalue' h
  | patterns | offsets =>
    cases hshape
    exact h.list
  | finding => cases hshape
  | formula nested =>
    cases before with
    | nil => cases hshape
    | cons first before =>
      cases hshape
      exact Formula.turns_item hvalue hvalue' h

/-- Where an object is read as the same after a change, or cannot be read after it, so is every
value around it. -/
theorem Altered.turns {change : Shape → Json.Fields → Json.Fields → Prop}
    (hchange : ∀ {shape fields fields'}, change shape fields fields' →
      Turns kept (shape.read (.object fields)) (shape.read (.object fields')))
    (h : Altered change shape value value') :
    Turns kept (shape.read value) (shape.read value') := by
  induction h with
  | here h => exact hchange h
  | field hshape h ih =>
    exact Shape.turns_field hshape h.isCompound.1 h.isCompound.2 ih _ _
  | item hshape h ih =>
    exact Shape.turns_item hshape h.isCompound.1 h.isCompound.2 ih

end Parts

/-! ## The altered object -/

namespace Shape

variable {shape : Shape} {fields fields' : Json.Fields}

theorem Reordered.turns (h : shape.Reordered fields fields') :
    Turns true (shape.read (.object fields)) (shape.read (.object fields')) := by
  cases shape with
  | document => exact Schema.turns_perm Document.orderly h
  | pattern => exact Schema.turns_perm PatternEntry.orderly h
  | finding => exact Schema.turns_perm Finding.orderly h
  | offset => exact Schema.turns_perm OffsetEntry.orderly h
  | patterns | offsets => exact .of_error nofun
  | formula nested => exact Formula.turns_perm h

theorem Extended.turns (h : shape.Extended fields fields') :
    Turns false (shape.read (.object fields)) (shape.read (.object fields')) := by
  obtain ⟨before, after, name, value, rfl, rfl, h⟩ := h
  intro found _
  cases shape with
  | document => exact Schema.read_extended_ne_ok rfl h
  | pattern => exact Schema.read_extended_ne_ok rfl h
  | finding => exact Schema.read_extended_ne_ok rfl h
  | offset => exact Schema.read_extended_ne_ok rfl h
  | patterns | offsets => exact nofun
  | formula nested => exact Formula.readAt_extended_ne_ok h

end Shape

/-! ## Levels -/

namespace Json

theorem itemsDepth_append (items items' : List Json) :
    itemsDepth (items ++ items') = max (itemsDepth items) (itemsDepth items') := by
  induction items with
  | nil => rw [List.nil_append, itemsDepth, Nat.zero_max]
  | cons item items ih => rw [List.cons_append, itemsDepth, itemsDepth, ih, max_assoc]

theorem fieldsDepth_append (fields fields' : Json.Fields) :
    fieldsDepth (fields ++ fields') = max (fieldsDepth fields) (fieldsDepth fields') := by
  induction fields with
  | nil => rw [List.nil_append, fieldsDepth, Nat.zero_max]
  | cons field fields ih => rw [List.cons_append, fieldsDepth, fieldsDepth, ih, max_assoc]

theorem fieldsDepth_perm {fields fields' : Json.Fields} (h : fields'.Perm fields) :
    fieldsDepth fields' = fieldsDepth fields := by
  induction h with
  | nil => rfl
  | cons field _ ih => rw [fieldsDepth, fieldsDepth, ih]
  | swap field field' fields =>
    simp only [fieldsDepth]
    exact max_left_comm _ _ _
  | trans _ _ ih ih' => exact ih.trans ih'

end Json

/-- The order of the fields does not matter to the levels. -/
theorem Altered.depth_eq {shape : Shape} {value value' : Json}
    (h : Altered Shape.Reordered shape value value') : value'.depth = value.depth := by
  induction h with
  | here h => rw [Json.depth, Json.depth, Json.fieldsDepth_perm h]
  | field _ _ ih =>
    simp only [Json.depth, Json.fieldsDepth_append, Json.fieldsDepth, ih]
  | item _ _ ih =>
    simp only [Json.depth, Json.itemsDepth_append, Json.itemsDepth, ih]

/-! ## Stored documents -/

namespace Document

/-- The bytes are a JSON text of the value and of nothing else. -/
def Holds (bytes : ByteArray) (value : Json) : Prop :=
  ∃ room, Json.ofText room (chars bytes) = (value, true)

/-- A plain value is held by what is written of it. -/
theorem holds_pretty {value : Json} (h : value.isPlain = true) :
    Holds value.pretty.toUTF8 value := by
  refine ⟨value.depth, ?_⟩
  rw [chars_toUTF8]
  exact Json.ofText_pretty h le_rfl

/-- The characters that a blank byte stands for. -/
def blanks : List Char := [' ', '\t', '\n', '\x0c', '\r']

/-- Bytes that are all blank stand for as many characters. -/
theorem exists_blanks : ∀ {bytes : List UInt8}, bytes.all isBlankByte = true →
    ∃ cs : List Char, cs.flatMap String.utf8EncodeChar = bytes ∧ ∀ c ∈ cs, c ∈ blanks
  | [], _ => ⟨[], rfl, nofun⟩
  | byte :: bytes, h => by
    rw [List.all_cons, Bool.and_eq_true] at h
    obtain ⟨cs, hcs, hblanks⟩ := exists_blanks h.2
    obtain ⟨c, hc, hbyte⟩ : ∃ c ∈ blanks, String.utf8EncodeChar c = [byte] := by
      have hblank := h.1
      simp only [isBlankByte, Bool.or_eq_true, decide_eq_true_eq] at hblank
      obtain (((rfl | rfl) | rfl) | rfl) | rfl := hblank <;> simp [blanks, String.utf8EncodeChar]
    refine ⟨c :: cs, ?_, List.forall_mem_cons.2 ⟨hc, hblanks⟩⟩
    rw [List.flatMap_cons, hcs, hbyte, List.singleton_append]

/-- A form feed is a blank byte, but no space of a JSON text. -/
theorem skipSpace_blanks : ∀ {cs : List Char}, (∀ c ∈ cs, c ∈ blanks) →
    Json.Grammar.skipSpace cs = [] ∨ ∃ rest, Json.Grammar.skipSpace cs = '\x0c' :: rest
  | [], _ => .inl rfl
  | c :: cs, h => by
    obtain ⟨hc, hcs⟩ := List.forall_mem_cons.1 h
    have ih := skipSpace_blanks hcs
    simp only [blanks, List.mem_cons, List.not_mem_nil, or_false] at hc
    obtain rfl | rfl | rfl | rfl | rfl := hc
    case inr.inr.inr.inl => exact .inr ⟨cs, rfl⟩
    all_goals exact ih

/-- No value is read from blanks. -/
theorem ofText_blanks (room : Nat) {cs : List Char} (h : ∀ c ∈ cs, c ∈ blanks) :
    Json.ofText room cs = (.cut, false) := by
  have hvalue (fuel : Nat) : Json.Grammar.value (fuel + 1) room cs = (.cut, none) := by
    rw [Json.Grammar.value]
    obtain hskip | ⟨rest, hskip⟩ := skipSpace_blanks h <;> rw [hskip] <;> rfl
  rw [Json.ofText, hvalue]

theorem Holds.not_blank {bytes : ByteArray} {value : Json} (h : Holds bytes value) :
    bytes.data.all isBlankByte = false := by
  obtain ⟨room, htext⟩ := h
  by_contra hblank
  rw [Bool.not_eq_false, ← Array.all_toList] at hblank
  obtain ⟨cs, hcs, hblanks⟩ := exists_blanks hblank
  have hbytes : bytes = (String.ofList cs).toUTF8 := by
    refine ByteArray.ext ?_
    rw [String.toUTF8_eq_toByteArray, String.toByteArray_ofList, List.utf8Encode,
      List.data_toByteArray, hcs]
  rw [hbytes, chars_toUTF8, String.toList_ofList, ofText_blanks room hblanks] at htext
  cases htext

/-- Bytes that hold a value are read as a document just if the value is that of a valid one, with no
more levels than a text may have. -/
theorem Holds.ofBytes_eq_ok_iff {format : SignatureFormat} {bytes : ByteArray} {value : Json}
    {document : Document} (h : Holds bytes value) :
    ofBytes format bytes = .ok document
      ↔ value.depth ≤ Json.maxDepth ∧ schema.read value = .ok document
        ∧ document.validate format = .ok () := by
  rw [Document.ofBytes_eq_ok_iff h.not_blank]
  obtain ⟨room, htext⟩ := h
  obtain ⟨hread, hcut⟩ := Json.ofText_room htext Json.maxDepth
  by_cases hdepth : value.depth ≤ Json.maxDepth
  · simp [hread hdepth, hdepth]
  · have halone := hcut (Nat.lt_of_not_le hdepth)
    constructor
    · rintro ⟨_, heq, -⟩
      rw [heq] at halone
      cases halone
    · exact fun h => absurd h.1 hdepth

/-- The document that is read from a text stays the same if the fields of one object of it, at any
depth, are put in another order; and none is read if such an object gets a field that it does not
declare, or another one of a name that it has. -/
theorem ofBytes_altered {format : SignatureFormat} {bytes : ByteArray} {document : Document}
    (h : ofBytes format bytes = .ok document) :
    (bytes.data.all isBlankByte = false → ∃ value, Holds bytes value)
    ∧ ∀ (value value' : Json) (bytes' : ByteArray), Holds bytes value → Holds bytes' value' →
      (Altered Shape.Reordered .document value value' → ofBytes format bytes' = .ok document)
      ∧ (Altered Shape.Extended .document value value' →
        ∃ fault, ofBytes format bytes' = .error (.invalidDocument fault)) := by
  refine ⟨fun hblank => ?_, fun value value' bytes' hvalue hvalue' => ?_⟩
  · obtain ⟨value, htext, -⟩ := (ofBytes_eq_ok_iff hblank).1 h
    exact ⟨value, _, htext⟩
  obtain ⟨hdepth, hread, hvalid⟩ := hvalue.ofBytes_eq_ok_iff.1 h
  refine ⟨fun haltered => ?_, fun haltered => ?_⟩
  -- The text of the altered value has as many levels as the one that was read.
  · have hturns : Turns true (schema.read value) (schema.read value') :=
      haltered.turns fun hchange => hchange.turns
    exact hvalue'.ofBytes_eq_ok_iff.2 ⟨haltered.depth_eq ▸ hdepth, hturns document hread, hvalid⟩
  · have hturns : Turns false (schema.read value) (schema.read value') :=
      haltered.turns fun hchange => hchange.turns
    rcases hbytes : ofBytes format bytes' with e | found
    · obtain ⟨fault, rfl⟩ := ofBytes_fails hbytes
      exact ⟨fault, rfl⟩
    · exact absurd (hvalue'.ofBytes_eq_ok_iff.1 hbytes).2.1 (hturns document hread found)

/-- The kind of a formula inside another one is told last, or the formula gets a field of another
kind. -/
theorem ofBytes_altered_operand :
    let value (operand : Json.Fields) : Json :=
      .object [Json.field "patterns" (.array []),
        Json.field "offsets" (.array [.object [Json.field "name" (.text "Far"),
          Json.field "operation" (.object [Json.field "operand" (.object operand),
            Json.field "operator" (.text "Add"), Json.field "type" (.text "operator")])]])]
    let operand := [Json.field "type" (.text "pattern"), Json.field "name" (.text "Near")]
    let document : Document := { offsets := [⟨"Far", some (.unary "Add" none (.pattern "Near"))⟩] }
    ofBytes {} (value operand).pretty.toUTF8 = .ok document
      ∧ ofBytes {} (value operand.reverse).pretty.toUTF8 = .ok document
      ∧ ∃ fault, ofBytes {} (value (operand ++ [Json.field "value" (.text "8")])).pretty.toUTF8
        = .error (.invalidDocument fault) := by
  intro value operand document
  have hholds : Holds (value operand).pretty.toUTF8 (value operand) := holds_pretty rfl
  have hread : ofBytes {} (value operand).pretty.toUTF8 = .ok document :=
    hholds.ofBytes_eq_ok_iff.2 (by decide +kernel)
  have hinside {change : Shape → Json.Fields → Json.Fields → Prop} {fields fields' : Json.Fields}
      (h : change (.formula true) fields fields') :
      Altered change .document (value fields) (value fields') := by
    have hformula := @Altered.field change (.formula false) _ "operand" []
      [Json.field "operator" (.text "Add"), Json.field "type" (.text "operator")] _ _ rfl (.here h)
    have hoffset := @Altered.field change .offset _ "operation"
      [Json.field "name" (.text "Far")] [] _ _ rfl hformula
    have hoffsets := @Altered.item change .offsets _ [] [] _ _ rfl hoffset
    exact @Altered.field change .document _ "offsets"
      [Json.field "patterns" (.array [])] [] _ _ rfl hoffsets
  have hreordered : Altered Shape.Reordered .document (value operand) (value operand.reverse) :=
    hinside (List.reverse_perm operand)
  have hextended : Altered Shape.Extended .document (value operand)
      (value (operand ++ [Json.field "value" (.text "8")])) := by
    refine hinside ⟨operand, [], some "value", .text "8", rfl, rfl, ?_⟩
    rintro _ ⟨⟩
    refine .inl ?_
    rintro (hname | ⟨tag, kind, htag, hkind, hname⟩)
    · exact absurd hname (by decide)
    · have htext : tag = .text "pattern" := by
        simpa [operand, Json.field, Formula.kindField] using htag
      subst htext
      have hpattern : Formula.Kind.pattern = kind := by
        simpa [Formula.toPart, Json.text, Formula.Part.kind?, Formula.Kind.all,
          Formula.Kind.name] using hkind
      subst hpattern
      simp [Formula.Kind.fields] at hname
  have haltered := (ofBytes_altered hread).2 (value operand)
  exact ⟨hread, (haltered _ _ hholds (holds_pretty rfl)).1 hreordered,
    (haltered _ _ hholds (holds_pretty rfl)).2 hextended⟩

end Document

end Landmark
