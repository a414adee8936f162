import Mathlib.Data.List.Forall2
import Mathlib.Data.List.Nodup
import Mathlib.Data.List.Perm.Basic
import Mathlib.Tactic.Common
import Landmark.Proofs.StoredDocument

/-!
# What records are read from

The fields of a record are read as changes of the blank record. If only declared fields are allowed,
reading succeeds just if each field is declared and can be read, none is repeated and no required
one is missing (`Schema.read_eq_ok_iff`). The changes of different fields commute, so the order of
the fields does not matter (`Schema.Makes.perm`).

Where a part of a record, of a list or of an optional value is replaced by one that is read as the
same, or by one that cannot be read, so is the whole (`Turns`).
-/

namespace Landmark

/-- Whether a value has parts. -/
def Json.IsCompound : Json → Prop
  | .array _ | .object _ => True
  | _ => False

/-- What can be read turns into something that is read as the same, or else into something that
cannot be read. -/
def Turns (kept : Bool) {α : Type} (found found' : Except DocumentFault α) : Prop :=
  ∀ a, found = .ok a → if kept then found' = .ok a else ∀ b, found' ≠ .ok b

namespace Turns

variable {kept : Bool} {α β : Type} {found found' : Except DocumentFault α}

theorem of_error (h : ∀ a, found ≠ .ok a) : Turns kept found found' :=
  fun a ha => absurd ha (h a)

theorem map (f : α → β) (h : Turns kept found found') :
    Turns kept (found.map f) (found'.map f) := by
  intro b hb
  obtain ⟨a, ha, rfl⟩ := Except.map_eq_ok hb
  have hturns := h a ha
  cases kept with
  | true => exact congrArg (Except.map f) hturns
  | false =>
    intro b hb
    obtain ⟨a', ha', -⟩ := Except.map_eq_ok hb
    exact hturns a' ha'

theorem mapM_append_cons_eq_ok_iff {read : Json → Except DocumentFault α} {item : Json}
    {before after : List Json} {as : List α} :
    (before ++ item :: after).mapM read = .ok as
      ↔ ∃ bs a cs, before.mapM read = .ok bs ∧ read item = .ok a ∧ after.mapM read = .ok cs
        ∧ as = bs ++ a :: cs := by
  rw [List.mapM_append, List.mapM_cons]
  rcases before.mapM read with _ | bs
  · exact ⟨nofun, nofun⟩
  rcases read item with _ | a
  · exact ⟨nofun, nofun⟩
  rcases after.mapM read with _ | cs
  · exact ⟨nofun, nofun⟩
  refine ⟨fun h => ⟨bs, a, cs, rfl, rfl, rfl, ?_⟩, ?_⟩
  · cases h
    rfl
  · rintro ⟨_, _, _, ⟨⟩, ⟨⟩, ⟨⟩, rfl⟩
    rfl

/-- A list with another item. -/
theorem list {read : Json → Except DocumentFault α} {item item' : Json} {before after : List Json}
    (h : Turns kept (read item) (read item')) :
    Turns kept (Json.readList read (.array (before ++ item :: after)))
      (Json.readList read (.array (before ++ item' :: after))) := by
  intro as has
  obtain ⟨bs, a, cs, hbs, ha, hcs, rfl⟩ := mapM_append_cons_eq_ok_iff.1 has
  have hturns := h a ha
  cases kept with
  | true => exact mapM_append_cons_eq_ok_iff.2 ⟨bs, a, cs, hbs, hturns, hcs, rfl⟩
  | false =>
    intro as' has'
    obtain ⟨-, a', -, -, ha', -, -⟩ := mapM_append_cons_eq_ok_iff.1 has'
    exact hturns a' ha'

/-- An optional value that is there both times. -/
theorem option {read : Json → Except DocumentFault α} {value value' : Json}
    (hvalue : value.IsCompound) (hvalue' : value'.IsCompound)
    (h : Turns kept (read value) (read value')) :
    Turns kept (Json.readOption read value) (Json.readOption read value') := by
  have hread {value : Json} (hvalue : value.IsCompound) :
      Json.readOption read value = (read value).map some := by
    cases value <;> first | rfl | exact hvalue.elim
  rw [hread hvalue, hread hvalue']
  exact h.map some

end Turns

/-- What stands before and behind an item of a record that is given as an array. -/
theorem Json.exists_asFields_array (names : List String) (before after : List Json) :
    ∃ before' after' : List (Option String × Json), ∀ item,
      (Json.array (before ++ item :: after)).asFields names
        = some (before' ++ (names[before.length]?, item) :: after') := by
  let labels := names.map some
    ++ List.replicate ((before ++ .null :: after).length - names.length) none
  have hlabels (item : Json) : (Json.array (before ++ item :: after)).asFields names
      = some (labels.zip (before ++ item :: after)) := by
    simp [asFields, labels]
  have hlt : before.length < labels.length := by
    simp only [labels, List.length_append, List.length_map, List.length_replicate, List.length_cons]
    omega
  have hlabel : labels[before.length] = names[before.length]? := by
    simp only [labels, List.getElem_append, List.length_map, List.getElem_map,
      List.getElem_replicate]
    split_ifs with h
    · rw [List.getElem?_eq_getElem h]
    · rw [List.getElem?_eq_none (Nat.le_of_not_lt h)]
  refine ⟨(labels.take before.length).zip before, (labels.drop (before.length + 1)).zip after,
    fun item => ?_⟩
  rw [hlabels, ← hlabel, ← List.zip_cons_cons, ← List.drop_eq_getElem_cons hlt,
    ← List.zip_append (by simp; omega), List.take_append_drop]

namespace Schema

variable {ρ : Type} {schema : Schema ρ}

/-- A declared field, and the change that its value is read as. -/
def Reads (schema : Schema ρ) (field : Option String × Json) (change : String × (ρ → ρ)) : Prop :=
  field.1 = some change.1 ∧ change.1 ∈ schema.names ∧ schema.put change.1 field.2 = .ok change.2

/-- The fields are read as the record: each is declared, none is repeated, none is missing, and the
record is what their changes make of the blank one. -/
def Makes (schema : Schema ρ) (fields : List (Option String × Json)) (record : ρ) : Prop :=
  ∃ changes, List.Forall₂ schema.Reads fields changes
    ∧ (changes.map Prod.fst).Nodup
    ∧ (∀ name ∈ schema.required, name ∈ changes.map Prod.fst)
    ∧ record = changes.foldl (fun record change => change.2 record) schema.blank

/-- A schema without other fields than the declared ones, whose changes commute. -/
structure Orderly (schema : Schema ρ) : Prop where
  strict : schema.lenient = false
  comm : ∀ {name other part part' change change'}, schema.put name part = .ok change →
    schema.put other part' = .ok change' → name ≠ other →
      ∀ record, change (change' record) = change' (change record)

theorem readFields_cons_eq_ok_iff (hstrict : schema.lenient = false) {name : String} {part : Json}
    {fields : List (Option String × Json)} {seen : List String}
    {changes : List (String × (ρ → ρ))} :
    schema.readFields seen ((some name, part) :: fields) = .ok changes
      ↔ name ∈ schema.names ∧ name ∉ seen ∧ ∃ change more, schema.put name part = .ok change
        ∧ schema.readFields (name :: seen) fields = .ok more
        ∧ changes = (name, change) :: more := by
  constructor
  · intro h
    rw [readFields, hstrict, Bool.false_and, if_neg Bool.false_ne_true] at h
    split_ifs at h with hname hseen
    rcases hput : schema.put name part with fault | change <;> rw [hput] at h
    · cases h
    rcases hmore : schema.readFields (name :: seen) fields with fault | more <;>
      simp only [hmore] at h
    · cases h
    · cases h
      exact ⟨hname, hseen, change, more, rfl, rfl, rfl⟩
  · rintro ⟨hname, hseen, change, more, hput, hmore, rfl⟩
    exact readFields_cons hname hseen hput hmore

theorem readFields_eq_ok_iff (hstrict : schema.lenient = false) :
    ∀ {fields : List (Option String × Json)} {seen : List String}
      {changes : List (String × (ρ → ρ))}, schema.readFields seen fields = .ok changes
        ↔ List.Forall₂ schema.Reads fields changes ∧ (changes.map Prod.fst).Nodup
          ∧ ∀ name ∈ changes.map Prod.fst, name ∉ seen := by
  intro fields
  induction fields with
  | nil =>
    intro seen changes
    rw [readFields, List.forall₂_nil_left_iff]
    constructor
    · rintro ⟨⟩
      simp
    · rintro ⟨rfl, -⟩
      rfl
  | cons field fields ih =>
    intro seen changes
    obtain ⟨name, part⟩ := field
    rw [List.forall₂_cons_left_iff]
    constructor
    · intro h
      cases name with
      | none => cases h
      | some name =>
        obtain ⟨hname, hseen, change, more, hput, hmore, rfl⟩ :=
          (readFields_cons_eq_ok_iff hstrict).1 h
        obtain ⟨hreads, hnodup, hnew⟩ := ih.1 hmore
        refine ⟨⟨_, _, ⟨rfl, hname, hput⟩, hreads, rfl⟩, ?_, ?_⟩
        · exact List.nodup_cons.2 ⟨fun hmem => hnew name hmem List.mem_cons_self, hnodup⟩
        · exact List.forall_mem_cons.2
            ⟨hseen, fun other hother hmem => hnew other hother (List.mem_cons_of_mem _ hmem)⟩
    · rintro ⟨⟨⟨name, change⟩, more, ⟨hname, hdeclared, hput⟩, hmore, rfl⟩, hnodup, hseen⟩
      cases hname
      obtain ⟨hnotMem, hnodup⟩ := List.nodup_cons.1 hnodup
      obtain ⟨hnew, hseen⟩ := List.forall_mem_cons.1 hseen
      refine (readFields_cons_eq_ok_iff hstrict).2 ⟨hdeclared, hnew, change, more, hput, ?_, rfl⟩
      refine ih.2 ⟨hmore, hnodup, fun other hother hmem => ?_⟩
      obtain rfl | hmem := List.mem_cons.1 hmem
      · exact hnotMem hother
      · exact hseen other hother hmem

theorem read_eq_ok_iff (hstrict : schema.lenient = false) {value : Json} {record : ρ} :
    schema.read value = .ok record
      ↔ ∃ fields, value.asFields schema.names = some fields ∧ schema.Makes fields record := by
  rw [read]
  cases value.asFields schema.names with
  | none => simp
  | some fields =>
    constructor
    · intro h
      dsimp only at h
      rcases hread : schema.readFields [] fields with fault | changes <;> rw [hread] at h
      · cases h
      · change (if _ then _ else _) = _ at h
        split_ifs at h with hrequired
        cases h
        obtain ⟨hreads, hnodup, -⟩ := (readFields_eq_ok_iff hstrict).1 hread
        exact ⟨fields, rfl, changes, hreads, hnodup, by simpa using hrequired, rfl⟩
    · rintro ⟨_, ⟨⟩, changes, hreads, hnodup, hrequired, rfl⟩
      have hread : schema.readFields [] _ = .ok changes :=
        (readFields_eq_ok_iff hstrict).2 ⟨hreads, hnodup, by simp⟩
      exact read_object hread hrequired

namespace Makes

variable {fields before after : List (Option String × Json)} {changes : List (String × (ρ → ρ))}
  {record : ρ}

theorem map_fst_eq (h : List.Forall₂ schema.Reads fields changes) :
    fields.map Prod.fst = (changes.map Prod.fst).map some := by
  induction h with
  | nil => rfl
  | cons hfield _ ih => rw [List.map_cons, List.map_cons, List.map_cons, ih, hfield.1]

theorem nodup (h : schema.Makes fields record) : (fields.map Prod.fst).Nodup := by
  obtain ⟨changes, hreads, hnodup, -⟩ := h
  rw [map_fst_eq hreads]
  exact hnodup.map fun _ _ => Option.some.inj

theorem exists_put (h : schema.Makes fields record) (field : Option String × Json)
    (hfield : field ∈ fields) :
    ∃ name change, field.1 = some name ∧ name ∈ schema.names
      ∧ schema.put name field.2 = .ok change := by
  obtain ⟨changes, hreads, -⟩ := h
  induction hreads with
  | nil => cases hfield
  | cons hfirst _ ih =>
    obtain rfl | hfield := List.mem_cons.1 hfield
    · exact ⟨_, _, hfirst⟩
    · exact ih hfield

theorem exists_part (h : List.Forall₂ schema.Reads fields changes) {change : String × (ρ → ρ)}
    (hchange : change ∈ changes) : ∃ part, schema.put change.1 part = .ok change.2 := by
  induction h with
  | nil => cases hchange
  | cons hfirst _ ih =>
    obtain rfl | hchange := List.mem_cons.1 hchange
    · exact ⟨_, hfirst.2.2⟩
    · exact ih hchange

/-- The order of the fields does not matter. -/
theorem perm (horderly : schema.Orderly) (h : schema.Makes fields record)
    {fields' : List (Option String × Json)} (hperm : fields'.Perm fields) :
    schema.Makes fields' record := by
  obtain ⟨changes, hreads, hnodup, hrequired, rfl⟩ := h
  obtain ⟨changes', hreads', hperm'⟩ := List.perm_comp_forall₂ hperm hreads
  have hnames := hperm'.map Prod.fst
  refine ⟨changes', hreads', hnames.nodup_iff.2 hnodup,
    fun name hname => hnames.mem_iff.2 (hrequired name hname), ?_⟩
  refine (hperm'.foldl_eq' (fun change hchange other hother record => ?_) schema.blank).symm
  obtain ⟨part, hput⟩ := exists_part hreads' hchange
  obtain ⟨part', hput'⟩ := exists_part hreads' hother
  by_cases hname : change.1 = other.1
  · rw [List.inj_on_of_nodup_map (hnames.nodup_iff.2 hnodup) hchange hother hname]
  · exact (horderly.comm hput hput' hname record).symm

/-- A field may be replaced by one of the same name that is read as the same. -/
theorem replace {name : Option String} {part part' : Json}
    (h : schema.Makes (before ++ (name, part) :: after) record)
    (hput : ∀ name' change, name = some name' → schema.put name' part = .ok change →
      schema.put name' part' = .ok change) :
    schema.Makes (before ++ (name, part') :: after) record := by
  obtain ⟨changes, hreads, hrest⟩ := h
  refine ⟨changes, ?_, hrest⟩
  clear hrest
  induction before generalizing changes with
  | nil =>
    cases hreads with
    | cons hfield hafter =>
      exact .cons ⟨hfield.1, hfield.2.1, hput _ _ hfield.1 hfield.2.2⟩ hafter
  | cons field before ih =>
    cases hreads with
    | cons hfield hrest => exact .cons hfield (ih _ hrest)

end Makes

/-- A part of a record is replaced. -/
theorem turns_part {kept : Bool} (hstrict : schema.lenient = false) {value value' part part' : Json}
    {name : Option String} {before after : List (Option String × Json)}
    (hfields : value.asFields schema.names = some (before ++ (name, part) :: after))
    (hfields' : value'.asFields schema.names = some (before ++ (name, part') :: after))
    (hput : ∀ name', name = some name' →
      Turns kept (schema.put name' part) (schema.put name' part')) :
    Turns kept (schema.read value) (schema.read value') := by
  intro record hrecord
  obtain ⟨fields, hsome, hmakes⟩ := (read_eq_ok_iff hstrict).1 hrecord
  cases hfields.symm.trans hsome
  cases kept with
  | true =>
    have hmakes' := hmakes.replace fun name' change hname => hput name' hname change
    exact (read_eq_ok_iff hstrict).2 ⟨_, hfields', hmakes'⟩
  | false =>
    intro record' hrecord'
    obtain ⟨fields', hsome', hmakes'⟩ := (read_eq_ok_iff hstrict).1 hrecord'
    cases hfields'.symm.trans hsome'
    obtain ⟨name', change, hname, -, hok⟩ := hmakes.exists_put (name, part) (by simp)
    obtain ⟨_, change', hname', -, hok'⟩ := hmakes'.exists_put (name, part') (by simp)
    cases hname.symm.trans hname'
    exact hput name' hname change hok change' hok'

theorem turns_field {kept : Bool} (hstrict : schema.lenient = false) {part part' : Json}
    {name : String} {before after : List (Option String × Json)}
    (hput : Turns kept (schema.put name part) (schema.put name part')) :
    Turns kept (schema.read (.object (before ++ (some name, part) :: after)))
      (schema.read (.object (before ++ (some name, part') :: after))) := by
  refine turns_part hstrict rfl rfl fun name' hname => ?_
  cases hname
  exact hput

theorem turns_item {kept : Bool} (hstrict : schema.lenient = false) {part part' : Json}
    {before after : List Json} (hput : ∀ name, schema.names[before.length]? = some name →
      Turns kept (schema.put name part) (schema.put name part')) :
    Turns kept (schema.read (.array (before ++ part :: after)))
      (schema.read (.array (before ++ part' :: after))) := by
  obtain ⟨before', after', hfields⟩ := Json.exists_asFields_array schema.names before after
  exact turns_part hstrict (hfields part) (hfields part') hput

/-- The fields of a record are put in another order. -/
theorem turns_perm (horderly : schema.Orderly) {fields fields' : List (Option String × Json)}
    (hperm : fields'.Perm fields) :
    Turns true (schema.read (.object fields)) (schema.read (.object fields')) := by
  intro record hrecord
  obtain ⟨_, ⟨⟩, hmakes⟩ := (read_eq_ok_iff horderly.strict).1 hrecord
  exact (read_eq_ok_iff horderly.strict).2 ⟨_, rfl, hmakes.perm horderly hperm⟩

/-- No record has a field that is not declared or two fields of one name. -/
theorem read_extended_ne_ok (hstrict : schema.lenient = false)
    {before after : List (Option String × Json)} {name : Option String} {part : Json}
    (h : ∀ known, name = some known →
      known ∉ schema.names ∨ some known ∈ (before ++ after).map Prod.fst) (record : ρ) :
    schema.read (.object (before ++ (name, part) :: after)) ≠ .ok record := by
  intro hrecord
  obtain ⟨_, ⟨⟩, hmakes⟩ := (read_eq_ok_iff hstrict).1 hrecord
  obtain ⟨known, _, hknown, hdeclared, -⟩ := hmakes.exists_put (name, part) (by simp)
  obtain hundeclared | hrepeated := h known hknown
  · exact hundeclared hdeclared
  · have hnodup := (List.perm_middle.map Prod.fst).nodup_iff.1 hmakes.nodup
    rw [List.map_cons, show name = some known from hknown] at hnodup
    exact (List.nodup_cons.1 hnodup).1 hrepeated

end Schema

/-! ## The records of a document

Each field changes a part of the record that no other field changes. -/

theorem Finding.of_put_eq_ok {name : String} {part : Json} {change : Finding → Finding}
    (h : schema.put name part = .ok change) :
    (name = "build" ∧ ∃ build, change = fun finding => { finding with build })
      ∨ name = "value" ∧ ∃ value, change = fun finding => { finding with value } := by
  simp only [schema] at h
  split at h
  · obtain ⟨build, -, rfl⟩ := Except.map_eq_ok h
    exact .inl ⟨rfl, build, rfl⟩
  · rcases htext : Json.readText part with fault | text <;> rw [htext] at h
    · cases h
    · rcases hvalue : readValue text with fault | value <;>
        simp only [bind, Except.bind, hvalue] at h
      · cases h
      · cases h
        exact .inr ⟨rfl, value, rfl⟩
  · cases h

theorem Finding.orderly : schema.Orderly where
  strict := rfl
  comm {name other part part' change change'} hput hput' hne record := by
    obtain ⟨rfl, _, rfl⟩ | ⟨rfl, _, rfl⟩ := of_put_eq_ok hput <;>
      obtain ⟨rfl, _, rfl⟩ | ⟨rfl, _, rfl⟩ := of_put_eq_ok hput' <;>
      first | exact absurd rfl hne | rfl

theorem PatternEntry.of_put_eq_ok {name : String} {part : Json}
    {change : PatternEntry → PatternEntry} (h : schema.put name part = .ok change) :
    (name = "name" ∧ ∃ name, change = fun entry => { entry with name })
      ∨ (name = "pattern" ∧ ∃ pattern, change = fun entry => { entry with pattern })
      ∨ name = "cached" ∧ ∃ cached, change = fun entry => { entry with cached } := by
  simp only [schema] at h
  split at h
  · obtain ⟨found, -, rfl⟩ := Except.map_eq_ok h
    exact .inl ⟨rfl, found, rfl⟩
  · obtain ⟨found, -, rfl⟩ := Except.map_eq_ok h
    exact .inr (.inl ⟨rfl, found, rfl⟩)
  · obtain ⟨found, -, rfl⟩ := Except.map_eq_ok h
    exact .inr (.inr ⟨rfl, found, rfl⟩)
  · cases h

theorem PatternEntry.orderly : schema.Orderly where
  strict := rfl
  comm {name other part part' change change'} hput hput' hne record := by
    obtain ⟨rfl, _, rfl⟩ | ⟨rfl, _, rfl⟩ | ⟨rfl, _, rfl⟩ := of_put_eq_ok hput <;>
      obtain ⟨rfl, _, rfl⟩ | ⟨rfl, _, rfl⟩ | ⟨rfl, _, rfl⟩ := of_put_eq_ok hput' <;>
      first | exact absurd rfl hne | rfl

theorem OffsetEntry.of_put_eq_ok {name : String} {part : Json} {change : OffsetEntry → OffsetEntry}
    (h : schema.put name part = .ok change) :
    (name = "name" ∧ ∃ name, change = fun entry => { entry with name })
      ∨ name = "operation" ∧ ∃ operation, change = fun entry => { entry with operation } := by
  simp only [schema] at h
  split at h
  · obtain ⟨found, -, rfl⟩ := Except.map_eq_ok h
    exact .inl ⟨rfl, found, rfl⟩
  · obtain ⟨found, -, rfl⟩ := Except.map_eq_ok h
    exact .inr ⟨rfl, found, rfl⟩
  · cases h

theorem OffsetEntry.orderly : schema.Orderly where
  strict := rfl
  comm {name other part part' change change'} hput hput' hne record := by
    obtain ⟨rfl, _, rfl⟩ | ⟨rfl, _, rfl⟩ := of_put_eq_ok hput <;>
      obtain ⟨rfl, _, rfl⟩ | ⟨rfl, _, rfl⟩ := of_put_eq_ok hput' <;>
      first | exact absurd rfl hne | rfl

theorem Document.of_put_eq_ok {name : String} {part : Json} {change : Document → Document}
    (h : schema.put name part = .ok change) :
    (name = "patterns" ∧ ∃ patterns, change = fun document => { document with patterns })
      ∨ name = "offsets" ∧ ∃ offsets, change = fun document => { document with offsets } := by
  simp only [schema] at h
  split at h
  · obtain ⟨found, -, rfl⟩ := Except.map_eq_ok h
    exact .inl ⟨rfl, found, rfl⟩
  · obtain ⟨found, -, rfl⟩ := Except.map_eq_ok h
    exact .inr ⟨rfl, found, rfl⟩
  · cases h

theorem Document.orderly : schema.Orderly where
  strict := rfl
  comm {name other part part' change change'} hput hput' hne record := by
    obtain ⟨rfl, _, rfl⟩ | ⟨rfl, _, rfl⟩ := of_put_eq_ok hput <;>
      obtain ⟨rfl, _, rfl⟩ | ⟨rfl, _, rfl⟩ := of_put_eq_ok hput' <;>
      first | exact absurd rfl hne | rfl

end Landmark
