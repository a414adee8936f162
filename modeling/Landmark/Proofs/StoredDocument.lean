import Mathlib.Logic.Function.Iterate
import Mathlib.Tactic.Common
import Landmark.Document.Stored
import Landmark.Proofs.JsonLevels
import Landmark.Proofs.Numerals
import Landmark.Proofs.StoredFormula

/-!
# Documents and their stored form

A valid document is read back from its bytes exactly if no formula of it is higher than
`Formula.maxHeight` (`ofBytes_toBytes_eq_ite`): the document, the list of its offsets and the offset
take three of the levels that a text may have. Otherwise the text is cut off among its offsets,
behind all patterns, and what is left of an offset is refused as unreadable. A document that was
read from whatever bytes is valid, unchanged and no higher than that (`of_ofBytes_eq_ok`), so it can
be written and read again.
-/

namespace Landmark

namespace Json

theorem depth_le_itemsDepth : ∀ {items : List Json}, ∀ item ∈ items, item.depth ≤ itemsDepth items
  | first :: items, item, h => by
    rcases List.mem_cons.1 h with rfl | h
    · exact le_max_left _ _
    · exact le_trans (depth_le_itemsDepth item h) (le_max_right _ _)

theorem depth_le_fieldsDepth : ∀ {fields : List (Option String × Json)}, ∀ field ∈ fields,
    field.2.depth ≤ fieldsDepth fields
  | (name, value) :: fields, field, h => by
    rcases List.mem_cons.1 h with rfl | h
    · exact le_max_left _ _
    · exact le_trans (depth_le_fieldsDepth field h) (le_max_right _ _)

/-- The fields of a record are a level below it. -/
theorem depth_lt_of_mem_asFields {names : List String} {value : Json}
    {parts : List (Option String × Json)} (h : value.asFields names = some parts) :
    ∀ part ∈ parts, part.2.depth < value.depth := by
  intro part hpart
  cases value with
  | object fields =>
    cases h
    exact Nat.lt_succ_of_le (depth_le_fieldsDepth part hpart)
  | array items =>
    cases h
    exact Nat.lt_succ_of_le
      (depth_le_itemsDepth part.2 (List.of_mem_zip (a := part.1) (b := part.2) hpart).2)
  | null | bool | natural | number | string | cut => cases h

end Json

namespace Schema

variable {ρ : Type} {schema : Schema ρ}

/-- What holds of the blank record and is kept by the change of each field that a part of the value
gives, holds of the record that the value is read as. -/
theorem read_induction {value : Json} {record : ρ} (P : ρ → Prop) (hblank : P schema.blank)
    (hput : ∀ name part change r, part.depth < value.depth →
      schema.put name part = .ok change → P r → P (change r))
    (h : schema.read value = .ok record) : P record := by
  have hfields : ∀ (fields : List (Option String × Json)) (seen : List String)
      (changes : List (String × (ρ → ρ))), (∀ f ∈ fields, f.2.depth < value.depth) →
        schema.readFields seen fields = .ok changes →
          ∀ r, P r → P (changes.foldl (fun record change => change.2 record) r) := by
    intro fields
    induction fields with
    | nil =>
      intro seen changes _ hread r hr
      cases hread
      exact hr
    | cons field fields ih =>
      intro seen changes hdepth hread r hr
      obtain ⟨name, part⟩ := field
      have hrest := fun f hf => hdepth f (List.mem_cons_of_mem _ hf)
      cases name with
      | none => cases hread
      | some name =>
        rw [readFields] at hread
        split_ifs at hread with hname hseen hlenient
        · rcases hput' : schema.put name part with fault | change <;> rw [hput'] at hread
          · cases hread
          · rcases hmore : schema.readFields (name :: seen) fields with fault | more <;>
              simp only [hmore] at hread
            · cases hread
            · cases hread
              exact ih _ _ hrest hmore _
                (hput _ _ _ _ (hdepth _ List.mem_cons_self) hput' hr)
        · exact ih _ _ hrest hread r hr
  rw [read] at h
  rcases hparts : value.asFields schema.names with _ | parts <;> rw [hparts] at h
  · cases h
  · rcases hread : schema.readFields [] parts with fault | changes <;> simp only [hread] at h
    · cases h
    · change (if _ then _ else _) = _ at h
      split_ifs at h
      cases h
      exact hfields parts [] changes (Json.depth_lt_of_mem_asFields hparts) hread _ hblank

theorem readFields_nil (seen : List String) : schema.readFields seen [] = .ok [] := rfl

theorem readFields_cons {seen : List String} {name : String} {part : Json}
    {fields : List (Option String × Json)} {change : ρ → ρ} {changes : List (String × (ρ → ρ))}
    (hname : name ∈ schema.names) (hseen : name ∉ seen) (hput : schema.put name part = .ok change)
    (hrest : schema.readFields (name :: seen) fields = .ok changes) :
    schema.readFields seen (Json.field name part :: fields) = .ok ((name, change) :: changes) := by
  rw [Json.field, readFields, if_pos hname, if_neg hseen, hput]
  simp only [hrest]
  rfl

theorem read_object {fields : List (Option String × Json)} {changes : List (String × (ρ → ρ))}
    (h : schema.readFields [] fields = .ok changes)
    (hrequired : ∀ name ∈ schema.required, name ∈ changes.map Prod.fst) :
    schema.read (.object fields)
      = .ok (changes.foldl (fun record change => change.2 record) schema.blank) := by
  rw [read]
  simp only [Json.asFields, h]
  change (if _ then _ else _) = _
  rw [if_pos]
  · rfl
  · rw [List.all_eq_true]
    exact fun name hname => by simpa using hrequired name hname

theorem readFields_error :
    ∀ {fields : List (Option String × Json)} {seen : List String} {fault : DocumentFault},
      (∀ name part fault, (some name, part) ∈ fields → schema.put name part = .error fault →
        fault = .unreadable) →
      schema.readFields seen fields = .error fault → fault = .unreadable
  | [], _, _, _, h => by cases h
  | (none, _) :: _, _, _, _, h => by
    cases h
    rfl
  | (some name, part) :: fields, seen, fault, hput, h => by
    have hrest := fun name part fault hmem => hput name part fault (List.mem_cons_of_mem _ hmem)
    rw [readFields] at h
    split_ifs at h
    · cases h
      rfl
    · rcases hfirst : schema.put name part with first | change <;> simp only [hfirst] at h
      · cases h
        exact hput name part _ List.mem_cons_self hfirst
      · rcases hmore : schema.readFields (name :: seen) fields with more | changes <;>
          simp only [hmore] at h
        · cases h
          exact readFields_error hrest hmore
        · cases h
    · exact readFields_error hrest h
    · cases h
      rfl

/-- A record has no fault but being unreadable if that is so for each of its fields. -/
theorem read_error {value : Json} {fault : DocumentFault}
    (hput : ∀ fields name part fault, value.asFields schema.names = some fields →
      (some name, part) ∈ fields → schema.put name part = .error fault → fault = .unreadable)
    (h : schema.read value = .error fault) : fault = .unreadable := by
  rw [read] at h
  rcases hparts : value.asFields schema.names with _ | parts <;> rw [hparts] at h
  · cases h
    rfl
  · rcases hread : schema.readFields [] parts with other | changes <;> simp only [hread] at h
    · cases h
      exact readFields_error (fun name part fault => hput parts name part fault hparts) hread
    · change (if _ then _ else _) = _ at h
      split_ifs at h
      · cases h
      · cases h
        rfl

end Schema

/-- Of the texts of a finding only that of its distance may be refused. -/
theorem Finding.read_texts (build text : String) :
    schema.read (.object [Json.field "build" (.text build), Json.field "value" (.text text)])
      = (readValue text).map (⟨build, ·⟩) := by
  have hbuild : schema.put "build" (.text build) = .ok fun found => { found with build } := by
    simp only [schema]
    rfl
  have hvalue : schema.put "value" (.text text)
      = (readValue text).map fun value found => { found with value } := by
    simp only [schema, Json.text, Json.readText, bind, Except.bind]
    cases readValue text <;> rfl
  rcases hread : readValue text with fault | value <;> rw [hread] at hvalue
  · simp only [Schema.read, Json.asFields, Json.field, Schema.readFields, hbuild, hvalue]
    rfl
  · have hfields := Schema.readFields_cons (by simp [schema]) List.not_mem_nil hbuild
      (Schema.readFields_cons (by simp [schema]) (by simp) hvalue (Schema.readFields_nil _))
    exact Schema.read_object hfields (by simp [schema])

theorem Finding.read_toJson (finding : Finding) :
    schema.read finding.toJson = .ok finding := by
  rw [toJson, read_texts, readValue_writeValue]
  rfl

theorem PatternEntry.read_toJson (entry : PatternEntry) :
    schema.read entry.toJson = .ok entry := by
  obtain ⟨name, pattern, cached⟩ := entry
  have hname : schema.put "name" (.text name) = .ok fun entry => { entry with name } := by
    simp only [schema]
    rfl
  have hpattern : schema.put "pattern" (.text pattern)
      = .ok fun entry => { entry with pattern } := by
    simp only [schema]
    rfl
  cases cached with
  | none =>
    have hfields := Schema.readFields_cons (by simp [schema]) List.not_mem_nil hname
      (Schema.readFields_cons (by simp [schema]) (by simp) hpattern (Schema.readFields_nil _))
    exact Schema.read_object hfields (by simp [schema])
  | some finding =>
    have hcached : schema.put "cached" finding.toJson
        = .ok fun entry => { entry with cached := some finding } := by
      simp only [schema]
      change ((Finding.schema.read finding.toJson).map some).map _ = _
      rw [Finding.read_toJson]
      rfl
    have hfields := Schema.readFields_cons (by simp [schema]) List.not_mem_nil hname
      (Schema.readFields_cons (by simp [schema]) (by simp) hpattern
        (Schema.readFields_cons (by simp [schema]) (by simp) hcached (Schema.readFields_nil _)))
    exact Schema.read_object hfields (by simp [schema])

theorem OffsetEntry.read_toJson (entry : OffsetEntry) :
    schema.read entry.toJson = .ok entry := by
  obtain ⟨name, operation⟩ := entry
  have hname : schema.put "name" (.text name) = .ok fun entry => { entry with name } := by
    simp only [schema]
    rfl
  cases operation with
  | none =>
    have hfields := Schema.readFields_cons (by simp [schema]) List.not_mem_nil hname
      (Schema.readFields_nil _)
    exact Schema.read_object hfields (by simp [schema])
  | some formula =>
    have hoperation : schema.put "operation" formula.toJson
        = .ok fun entry => { entry with operation := some formula } := by
      obtain ⟨fields, hjson, -⟩ := formula.exists_fields
      have hread := formula.read_toJson
      rw [hjson] at hread ⊢
      simp only [schema]
      change ((Formula.read (.object fields)).map some).map _ = _
      rw [hread]
      rfl
    have hfields := Schema.readFields_cons (by simp [schema]) List.not_mem_nil hname
      (Schema.readFields_cons (by simp [schema]) (by simp) hoperation (Schema.readFields_nil _))
    exact Schema.read_object hfields (by simp [schema])

/-! ## Faults of offsets -/

theorem Except.map_eq_error {ε α β : Type} {f : α → β} {result : Except ε α} {e : ε}
    (h : result.map f = .error e) : result = .error e := by
  cases result with
  | error e' =>
    cases h
    rfl
  | ok a => cases h

theorem Json.readText_error {value : Json} {fault : DocumentFault}
    (h : readText value = .error fault) : fault = .unreadable := by
  unfold readText at h
  split at h <;> cases h
  rfl

theorem Json.readOption_error {α : Type} {read : Json → Except DocumentFault α} {value : Json}
    {fault : DocumentFault} (h : readOption read value = .error fault) :
    read value = .error fault := by
  unfold readOption at h
  split at h
  · cases h
  · exact Except.map_eq_error h

theorem Json.readList_error {α : Type} {read : Json → Except DocumentFault α}
    (hread : ∀ item fault, read item = .error fault → fault = .unreadable) {value : Json}
    {fault : DocumentFault} (h : readList read value = .error fault) : fault = .unreadable := by
  cases value with
  | array items =>
    change items.mapM read = _ at h
    induction items generalizing fault with
    | nil => cases h
    | cons item items ih =>
      rw [List.mapM_cons] at h
      rcases hfirst : read item with first | a <;> simp only [hfirst] at h
      · cases h
        exact hread item _ hfirst
      · rcases hrest : items.mapM read with rest | as <;> simp only [hrest] at h
        · cases h
          exact ih hrest
        · cases h
  | null | bool | natural | number | string | object | cut =>
    cases h
    rfl

theorem Formula.read_error {value : Json} {fault : DocumentFault}
    (h : read value = .error fault) : fault = .unreadable := by
  unfold read at h
  split at h <;> cases h
  rfl

/-- An offset that cannot be read has no fault but that. -/
theorem OffsetEntry.read_error {value : Json} {fault : DocumentFault}
    (h : schema.read value = .error fault) : fault = .unreadable := by
  refine Schema.read_error (fun fields name part fault _ _ hput => ?_) h
  simp only [schema] at hput
  split at hput
  · exact Json.readText_error (Except.map_eq_error hput)
  · exact Formula.read_error (Json.readOption_error (Except.map_eq_error hput))
  · cases hput
    rfl

theorem Json.readList_map {α : Type} {read : Json → Except DocumentFault α} {write : α → Json}
    (h : ∀ a, read (write a) = .ok a) (as : List α) :
    readList read (.array (as.map write)) = .ok as := by
  induction as with
  | nil => rfl
  | cons a as ih =>
    simp only [readList, List.map_cons, List.mapM_cons, h] at ih ⊢
    rw [ih]
    rfl

namespace Document

theorem read_toJson (document : Document) :
    schema.read document.toJson = .ok document.markClean := by
  have hpatterns : schema.put "patterns" (.array (document.patterns.map PatternEntry.toJson))
      = .ok fun found => { found with patterns := document.patterns } := by
    simp only [schema, Json.readList_map PatternEntry.read_toJson]
    rfl
  have hoffsets : schema.put "offsets" (.array (document.offsets.map OffsetEntry.toJson))
      = .ok fun found => { found with offsets := document.offsets } := by
    simp only [schema, Json.readList_map OffsetEntry.read_toJson]
    rfl
  have hfields := Schema.readFields_cons (by simp [schema]) List.not_mem_nil hpatterns
    (Schema.readFields_cons (by simp [schema]) (by simp) hoffsets (Schema.readFields_nil _))
  exact Schema.read_object hfields (by simp [schema])

end Document

/-! ## Levels of a stored document -/

namespace Json

variable {α : Type} {write : α → Json}

theorem itemsPlain_map (h : ∀ a, (write a).isPlain = true) :
    ∀ as : List α, itemsPlain (as.map write) = true
  | [] => rfl
  | a :: as => by rw [List.map_cons, itemsPlain, h a, itemsPlain_map h as]; rfl

theorem itemsDepth_map_le_iff {n : Nat} :
    ∀ as : List α, itemsDepth (as.map write) ≤ n ↔ ∀ a ∈ as, (write a).depth ≤ n
  | [] => by simp [itemsDepth]
  | a :: as => by
    rw [List.map_cons, itemsDepth, Nat.max_le, itemsDepth_map_le_iff as, List.forall_mem_cons]

end Json

theorem Finding.isPlain_toJson (finding : Finding) : finding.toJson.isPlain = true := by
  simp [toJson, Json.isPlain, Json.fieldsPlain, Json.field, Json.text]

theorem Finding.depth_toJson (finding : Finding) : finding.toJson.depth = 1 := by
  simp [toJson, Json.depth, Json.fieldsDepth, Json.field, Json.text]

theorem PatternEntry.isPlain_toJson (entry : PatternEntry) : entry.toJson.isPlain = true := by
  obtain ⟨name, pattern, cached⟩ := entry
  cases cached with
  | none => rfl
  | some finding =>
    simp [toJson, Json.isPlain, Json.fieldsPlain, Json.field, Json.field?, Json.text,
      finding.isPlain_toJson]

theorem PatternEntry.depth_toJson_le (entry : PatternEntry) : entry.toJson.depth ≤ 2 := by
  obtain ⟨name, pattern, cached⟩ := entry
  cases cached with
  | none => simp [toJson, Json.depth, Json.fieldsDepth, Json.field, Json.field?, Json.text]
  | some finding =>
    simp [toJson, Json.depth, Json.fieldsDepth, Json.field, Json.field?, Json.text,
      finding.depth_toJson]

theorem OffsetEntry.isPlain_toJson (entry : OffsetEntry) : entry.toJson.isPlain = true := by
  obtain ⟨name, operation⟩ := entry
  cases operation with
  | none => rfl
  | some formula =>
    simp [toJson, Json.isPlain, Json.fieldsPlain, Json.field, Json.field?, Json.text,
      formula.isPlain_toJson]

theorem OffsetEntry.depth_toJson_le_iff {entry : OffsetEntry} {n : Nat} :
    entry.toJson.depth ≤ n + 1 ↔ ∀ formula ∈ entry.operation, formula.height ≤ n := by
  obtain ⟨name, operation⟩ := entry
  cases operation with
  | none => simp [toJson, Json.depth, Json.fieldsDepth, Json.field, Json.field?, Json.text]
  | some formula =>
    simp [toJson, Json.depth, Json.fieldsDepth, Json.field, Json.field?, Json.text,
      formula.depth_toJson]

/-- The height of the highest formulas that a stored document may hold. -/
def Formula.maxHeight : Nat := 124

namespace Document

/-- Whether no formula of a document is too high for its stored form to be read. -/
def IsShallow (document : Document) : Prop :=
  ∀ entry ∈ document.offsets, ∀ formula ∈ entry.operation, formula.height ≤ Formula.maxHeight

theorem isShallow_congr {document document' : Document}
    (h : document.offsets = document'.offsets) : document.IsShallow ↔ document'.IsShallow := by
  rw [IsShallow, IsShallow, h]

instance (document : Document) : Decidable document.IsShallow :=
  inferInstanceAs (Decidable (∀ entry ∈ document.offsets, ∀ formula ∈ entry.operation,
    formula.height ≤ Formula.maxHeight))

theorem isPlain_toJson (document : Document) : document.toJson.isPlain = true := by
  simp [toJson, Json.isPlain, Json.fieldsPlain, Json.field,
    Json.itemsPlain_map PatternEntry.isPlain_toJson, Json.itemsPlain_map OffsetEntry.isPlain_toJson]

/-- The document, the list of its offsets and an offset take a level each. -/
theorem depth_toJson_le_iff (document : Document) :
    document.toJson.depth ≤ Json.maxDepth ↔ document.IsShallow := by
  have hpatterns : Json.itemsDepth (document.patterns.map PatternEntry.toJson) ≤ 125 :=
    (Json.itemsDepth_map_le_iff _).2 fun entry _ =>
      le_trans entry.depth_toJson_le (by decide)
  have hoffsets : Json.itemsDepth (document.offsets.map OffsetEntry.toJson) ≤ 125
      ↔ document.IsShallow := by
    rw [Json.itemsDepth_map_le_iff]
    exact forall₂_congr fun entry _ => OffsetEntry.depth_toJson_le_iff
  rw [← hoffsets]
  simp only [toJson, Json.depth, Json.fieldsDepth, Json.field, Json.maxDepth]
  omega

theorem ofBytes_empty (format : SignatureFormat) : ofBytes format .empty = .ok {} := by
  simp [ofBytes]

/-- Bytes that are no document have a fault. -/
theorem ofBytes_fails {format : SignatureFormat} {content : ByteArray} {e : Error}
    (h : ofBytes format content = .error e) : ∃ fault, e = .invalidDocument fault := by
  unfold ofBytes at h
  split_ifs at h
  unfold Except.mapError at h
  split at h
  · rename_i fault _
    cases h
    exact ⟨fault, rfl⟩
  · cases h

theorem chars_toUTF8 (s : String) : chars s.toUTF8 = s.toList := by
  have hvalid : s.toUTF8.IsValidUTF8 := s.isValidUTF8
  rw [chars, String.fromUTF8?, dif_pos hvalid]
  rfl

/-- The first byte of a stored document is no blank. -/
theorem all_isBlankByte_toBytes (document : Document) :
    document.toBytes.data.all isBlankByte = false := by
  obtain ⟨rest, hrest⟩ : ∃ rest, document.toJson.prettyTo 0 [] = '{' :: rest := ⟨_, rfl⟩
  rw [toBytes, Json.pretty, hrest, String.toUTF8_eq_toByteArray, String.toByteArray_ofList,
    List.utf8Encode, List.data_toByteArray, List.flatMap_cons]
  simp [String.utf8EncodeChar, isBlankByte]

theorem ofBytes_toBytes_eq (format : SignatureFormat) (document : Document) :
    ofBytes format document.toBytes = Except.mapError .invalidDocument (do
      let found ← Json.readAll Json.maxDepth schema.read document.toJson.pretty.toList
      found.validate format
      return found) := by
  rw [ofBytes, document.all_isBlankByte_toBytes, if_neg Bool.false_ne_true, toBytes, chars_toUTF8]

/-- A document is read from bytes that are not blank just if they are the text of a value that is
read as it, and it is valid. -/
theorem ofBytes_eq_ok_iff {format : SignatureFormat} {bytes : ByteArray} {document : Document}
    (hblank : bytes.data.all isBlankByte = false) :
    ofBytes format bytes = .ok document
      ↔ ∃ value, Json.ofText Json.maxDepth (chars bytes) = (value, true)
        ∧ schema.read value = .ok document ∧ document.validate format = .ok () := by
  rw [ofBytes, hblank, if_neg Bool.false_ne_true, Json.readAll]
  rcases Json.ofText Json.maxDepth (chars bytes) with ⟨value, alone⟩
  rcases hread : schema.read value with fault | found
  · simp [Except.mapError, bind, Except.bind, hread]
  cases alone with
  | false => simp [Except.mapError, bind, Except.bind, hread]
  | true =>
    rcases hvalid : found.validate format with fault | _
    · simp only [Except.mapError, bind, Except.bind, hread, if_true, hvalid]
      refine ⟨nofun, ?_⟩
      rintro ⟨_, heq, hfound, hdocument⟩
      cases heq
      cases hread.symm.trans hfound
      cases hvalid.symm.trans hdocument
    · simp only [Except.mapError, bind, Except.bind, hread, if_true, hvalid]
      constructor
      · rintro ⟨⟩
        exact ⟨value, rfl, hread, hvalid⟩
      · rintro ⟨_, heq, hfound, -⟩
        cases heq
        cases hread.symm.trans hfound
        rfl

/-- A valid document is read back from its stored form if no formula of it is too high. -/
theorem ofBytes_toBytes {format : SignatureFormat} {document : Document}
    (hvalid : document.validate format = .ok ()) (hshallow : document.IsShallow) :
    ofBytes format document.toBytes = .ok document.markClean := by
  have htext := Json.ofText_pretty document.isPlain_toJson
    (document.depth_toJson_le_iff.2 hshallow)
  rw [← chars_toUTF8] at htext
  exact (ofBytes_eq_ok_iff document.all_isBlankByte_toBytes).2
    ⟨_, htext, document.read_toJson, hvalid⟩

/-- What follows the patterns of a document can only be found to be unreadable. -/
theorem read_patterns_error (document : Document) {found : Json} {fault : DocumentFault}
    (h : schema.read (.object [Json.field "patterns"
      (.array (document.patterns.map PatternEntry.toJson)), Json.field "offsets" found])
        = .error fault) : fault = .unreadable := by
  refine Schema.read_error (fun fields name part fault hfields hmem hput => ?_) h
  cases hfields
  simp only [Json.field, List.mem_cons, Prod.mk.injEq, Option.some.injEq, List.not_mem_nil,
    or_false] at hmem
  simp only [schema] at hput
  rcases hmem with ⟨rfl, rfl⟩ | ⟨rfl, rfl⟩
  · rw [Json.readList_map PatternEntry.read_toJson] at hput
    cases hput
  · exact Json.readList_error (fun _ _ => OffsetEntry.read_error) (Except.map_eq_error hput)

/-- The stored form of a document with a formula that is too high is no document. -/
theorem ofBytes_toBytes_of_not_isShallow (format : SignatureFormat) {document : Document}
    (hdeep : ¬ document.IsShallow) :
    ofBytes format document.toBytes = .error (.invalidDocument .unreadable) := by
  have hdepth := Nat.lt_of_not_le (document.depth_toJson_le_iff.not.2 hdeep)
  obtain ⟨before, name, value, after, found, hsplit, hlt, htext⟩ :=
    Json.ofText_pretty_of_lt_depth document.isPlain_toJson (Nat.lt_of_succ_lt_succ hdepth)
  -- The patterns have few levels, so it is among the offsets that the text is cut off.
  have hcut : before ++ [(name, found)] = [Json.field "patterns"
      (.array (document.patterns.map PatternEntry.toJson)), Json.field "offsets" found] := by
    have hpatterns : Json.itemsDepth (document.patterns.map PatternEntry.toJson) ≤ 2 :=
      (Json.itemsDepth_map_le_iff _).2 fun entry _ => entry.depth_toJson_le
    match before with
    | [] =>
      obtain ⟨heq, -⟩ := List.cons.inj hsplit
      cases heq
      rw [Json.depth] at hlt
      omega
    | [first] =>
      obtain ⟨rfl, hrest⟩ := List.cons.inj hsplit
      obtain ⟨heq, -⟩ := List.cons.inj hrest
      cases heq
      rfl
    | first :: second :: before =>
      have := congrArg List.length hsplit
      simp at this
  rw [hcut] at htext
  change Json.ofText Json.maxDepth document.toJson.pretty.toList = _ at htext
  rw [ofBytes_toBytes_eq, Json.readAll, htext]
  simp only [bind, Except.bind]
  rcases hread : schema.read _ with fault | found
  · rw [document.read_patterns_error hread]
    rfl
  · rfl

/-- A valid document is read back as it was written, in the same order and unchanged, if no formula
of it is higher than `Formula.maxHeight`; otherwise its stored form cannot be read. -/
theorem ofBytes_toBytes_eq_ite {format : SignatureFormat} {document : Document}
    (hvalid : document.validate format = .ok ()) :
    ofBytes format document.toBytes
      = if document.IsShallow then .ok { document with dirty := false }
        else .error (.invalidDocument .unreadable) := by
  split_ifs with hshallow
  · exact ofBytes_toBytes hvalid hshallow
  · exact ofBytes_toBytes_of_not_isShallow format hshallow

/-- A document with characters that are escaped and a distance below zero, and a formula of as many
levels as can be read or of one more. -/
theorem ofBytes_toBytes_eq_ite_edge :
    let document (n : Nat) : Document :=
      { patterns := [⟨" Größe\n", "48 8B ? 05", some ⟨"\"1.0\"\t", -16⟩⟩]
        offsets := [⟨"Größe", none⟩,
          ⟨"Tief\x01", some ((Formula.unary "Add" (some "8"))^[n] (.pattern "Größe"))⟩]
        dirty := true }
    ((document 123).validate {} = .ok ()
        ∧ ofBytes {} (document 123).toBytes = .ok { document 123 with dirty := false })
      ∧ (document 124).validate {} = .ok ()
        ∧ ofBytes {} (document 124).toBytes = .error (.invalidDocument .unreadable) := by
  intro document
  have hread : (document 123).validate {} = .ok () := by decide +kernel
  have hcut : (document 124).validate {} = .ok () := by decide +kernel
  exact ⟨⟨hread, (ofBytes_toBytes_eq_ite hread).trans (if_pos (by decide +kernel))⟩,
    hcut, (ofBytes_toBytes_eq_ite hcut).trans (if_neg (by decide +kernel))⟩

end Document

/-! ## Documents that were read -/

theorem Except.map_eq_ok {ε α β : Type} {f : α → β} {result : Except ε α} {b : β}
    (h : result.map f = .ok b) : ∃ a, result = .ok a ∧ b = f a := by
  cases result with
  | error e => cases h
  | ok a =>
    cases h
    exact ⟨a, rfl, rfl⟩

theorem Json.of_mem_of_mapM_eq_ok {α : Type} {read : Json → Except DocumentFault α} :
    ∀ {items : List Json} {as : List α}, items.mapM read = .ok as →
      ∀ a ∈ as, ∃ item ∈ items, read item = .ok a
  | [], as, h, a, ha => by
    cases h
    cases ha
  | item :: items, as, h, a, ha => by
    rw [List.mapM_cons] at h
    rcases hfirst : read item with fault | first <;> simp only [hfirst] at h
    · cases h
    · rcases hrest : items.mapM read with fault | rest <;> simp only [hrest] at h
      · cases h
      · cases h
        rcases List.mem_cons.1 ha with rfl | ha
        · exact ⟨item, List.mem_cons_self, hfirst⟩
        · obtain ⟨found, hmem, hread⟩ := Json.of_mem_of_mapM_eq_ok hrest a ha
          exact ⟨found, List.mem_cons_of_mem _ hmem, hread⟩

/-- The items of a list are read from values a level below it. -/
theorem Json.of_mem_of_readList_eq_ok {α : Type} {read : Json → Except DocumentFault α}
    {value : Json} {as : List α} (h : readList read value = .ok as) :
    ∀ a ∈ as, ∃ item : Json, item.depth < value.depth ∧ read item = .ok a := by
  intro a ha
  cases value with
  | array items =>
    obtain ⟨item, hmem, hread⟩ := of_mem_of_mapM_eq_ok h a ha
    exact ⟨item, Nat.lt_succ_of_le (depth_le_itemsDepth item hmem), hread⟩
  | null | bool | natural | number | string | object | cut => cases h

theorem Json.readOption_eq_some {α : Type} {read : Json → Except DocumentFault α} {value : Json}
    {a : α} (h : readOption read value = .ok (some a)) : read value = .ok a := by
  unfold readOption at h
  split at h
  · cases h
  · obtain ⟨found, hread, heq⟩ := Except.map_eq_ok h
    cases heq
    exact hread

/-- A formula is a level below the offset that it is read with. -/
theorem OffsetEntry.height_lt_of_read {value : Json} {entry : OffsetEntry}
    (h : schema.read value = .ok entry) : ∀ formula ∈ entry.operation, formula.height < value.depth
    := by
  refine Schema.read_induction (fun entry : OffsetEntry =>
    ∀ formula ∈ entry.operation, formula.height < value.depth) (by simp [schema])
    (fun name part change entry hdepth hput hentry => ?_) h
  simp only [schema] at hput
  split at hput
  · obtain ⟨_, -, rfl⟩ := Except.map_eq_ok hput
    exact hentry
  · obtain ⟨operation, hread, rfl⟩ := Except.map_eq_ok hput
    intro formula hformula
    cases Option.mem_def.1 hformula
    exact lt_of_le_of_lt (Formula.height_le_of_read (Json.readOption_eq_some hread)) hdepth
  · cases hput

namespace Document

/-- A document that is read is unchanged, and its formulas are three levels below it. -/
theorem of_read_eq_ok {value : Json} {document : Document}
    (h : schema.read value = .ok document) : document.dirty = false
      ∧ ∀ entry ∈ document.offsets, ∀ formula ∈ entry.operation, formula.height + 3 ≤ value.depth
    := by
  refine Schema.read_induction (fun document : Document => document.dirty = false
    ∧ ∀ entry ∈ document.offsets, ∀ formula ∈ entry.operation, formula.height + 3 ≤ value.depth)
    (by simp [schema]) (fun name part change document hdepth hput hdocument => ?_) h
  simp only [schema] at hput
  split at hput
  · obtain ⟨_, -, rfl⟩ := Except.map_eq_ok hput
    exact hdocument
  · obtain ⟨offsets, hread, rfl⟩ := Except.map_eq_ok hput
    refine ⟨hdocument.1, fun entry hentry formula hformula => ?_⟩
    obtain ⟨item, hitem, hread⟩ := Json.of_mem_of_readList_eq_ok hread entry hentry
    have := OffsetEntry.height_lt_of_read hread formula hformula
    omega
  · cases hput

/-- A document that was read from some bytes is valid and unchanged, and no formula of it is too
high to be read again. -/
theorem of_ofBytes_eq_ok {format : SignatureFormat} {bytes : ByteArray} {document : Document}
    (h : ofBytes format bytes = .ok document) :
    document.validate format = .ok () ∧ document.IsShallow ∧ document.dirty = false := by
  by_cases hblank : bytes.data.all isBlankByte = true
  · rw [ofBytes, if_pos hblank] at h
    cases h
    exact ⟨rfl, by simp [IsShallow], rfl⟩
  · obtain ⟨value, htext, hread, hvalid⟩ := (ofBytes_eq_ok_iff (by simpa using hblank)).1 h
    have hdepth := Json.depth_ofText_le Json.maxDepth (chars bytes)
    rw [htext] at hdepth
    obtain ⟨hclean, hheight⟩ := of_read_eq_ok hread
    refine ⟨hvalid, fun entry hentry formula hformula => ?_, hclean⟩
    have := hheight entry hentry formula hformula
    simp only [Json.maxDepth, Formula.maxHeight] at hdepth ⊢
    omega

end Document

end Landmark
