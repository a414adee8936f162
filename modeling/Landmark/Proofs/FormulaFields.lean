import Mathlib.Data.List.Nodup
import Mathlib.Data.List.Perm.Basic
import Mathlib.Tactic.Common
import Landmark.Proofs.Records
import Landmark.Proofs.StoredFormula

/-!
# The fields of formulas

The kind of a formula is told by one of its fields, which may stand anywhere among them, and says
which other fields there may be. So a formula is read from its fields just if one of them tells its
kind and the others are fields of that kind, none of them repeated (`Formula.ofFields_eq_some_iff`),
and the order of the fields does not matter (`Formula.Makes.perm`). None of the parts of a formula
may be something that no field of a formula can be (`Formula.Makes.ne_other`).
-/

namespace Landmark

namespace Formula

theorem lookup_eq_some_iff_mem {α : Type} {name : String} {value : α} :
    ∀ {entries : List (String × α)}, (entries.map Prod.fst).Nodup →
      (entries.lookup name = some value ↔ (name, value) ∈ entries)
  | [], _ => by simp
  | (other, found) :: entries, h => by
    obtain ⟨hother, hentries⟩ := List.nodup_cons.1 h
    rw [List.lookup_cons]
    by_cases hname : name = other
    · subst hname
      have hnotMem : (name, value) ∉ entries := fun hmem =>
        hother (List.mem_map.2 ⟨(name, value), hmem, rfl⟩)
      simp [hnotMem, eq_comm]
    · simp [beq_false_of_ne hname, hname, lookup_eq_some_iff_mem hentries]

/-- Where no name is repeated, a lookup does not depend on the order of the entries. -/
theorem lookup_perm {α : Type} {entries entries' : List (String × α)}
    (h : (entries.map Prod.fst).Nodup) (hperm : entries'.Perm entries) (name : String) :
    entries'.lookup name = entries.lookup name := by
  have h' := (hperm.map Prod.fst).nodup_iff.2 h
  ext value
  rw [lookup_eq_some_iff_mem h', lookup_eq_some_iff_mem h, hperm.mem_iff]

theorem ofParts_perm {kind : Kind} {parts parts' : List (String × Part)}
    (h : (parts.map Prod.fst).Nodup) (hperm : parts'.Perm parts) :
    ofParts kind parts' = ofParts kind parts := by
  unfold ofParts
  simp only [lookup_perm h hperm]

/-- A field of a formula is not something that no field of a formula can be. -/
theorem lookup_ne_other {kind : Kind} {parts : List (String × Part)} {formula : Formula}
    {name : String} (h : ofParts kind parts = some formula) (hname : name ∈ kind.fields) :
    parts.lookup name ≠ some .other := by
  intro hother
  cases kind <;> simp only [Kind.fields, List.mem_cons, List.not_mem_nil, or_false] at hname
  case constant | pattern =>
    subst hname
    simp [ofParts, hother, Part.text?] at h
  case unary =>
    obtain rfl | rfl | rfl := hname <;>
      simp [ofParts, hother, Part.text?, Part.optional?, Part.formula?] at h
  case binary =>
    obtain rfl | rfl | rfl := hname <;> simp [ofParts, hother, Part.text?, Part.formula?] at h

/-- The parts under their names. -/
def named (own : List (String × Part)) : List (Option String × Part) :=
  own.map fun part => (some part.1, part.2)

theorem declared_eq_some_iff : ∀ {parts : List (Option String × Part)} {names : List String}
    {own : List (String × Part)}, names.Nodup → (declared names parts = some own
      ↔ parts = named own ∧ (own.map Prod.fst).Nodup ∧ ∀ part ∈ own, part.1 ∈ names)
  | [], names, own, _ => by
    rw [declared]
    constructor
    · rintro ⟨⟩
      simp [named]
    · rintro ⟨h, -⟩
      rw [List.map_eq_nil_iff.1 h.symm]
  | (none, part) :: parts, names, own, _ => by
    rw [declared]
    constructor
    · intro h
      cases h
    · rintro ⟨h, -⟩
      cases own with
      | nil => cases h
      | cons first own => cases h
  | (some name, part) :: parts, names, own, hnames => by
    rw [declared_cons_eq_some_iff]
    constructor
    · rintro ⟨hname, rest, hrest, rfl⟩
      obtain ⟨rfl, hnodup, hrest⟩ := (declared_eq_some_iff (hnames.erase name)).1 hrest
      have hother (part : String × Part) (hpart : part ∈ rest) : part.1 ≠ name ∧ part.1 ∈ names :=
        hnames.mem_erase_iff.1 (hrest part hpart)
      refine ⟨rfl, List.nodup_cons.2 ⟨fun hmem => ?_, hnodup⟩,
        List.forall_mem_cons.2 ⟨hname, fun part hpart => (hother part hpart).2⟩⟩
      obtain ⟨part, hpart, heq⟩ := List.mem_map.1 hmem
      exact (hother part hpart).1 heq
    · rintro ⟨h, hnodup, hown⟩
      cases own with
      | nil => cases h
      | cons first own =>
        cases h
        obtain ⟨hnotMem, hnodup⟩ := List.nodup_cons.1 hnodup
        obtain ⟨hname, hown⟩ := List.forall_mem_cons.1 hown
        refine ⟨hname, own, ?_, rfl⟩
        refine (declared_eq_some_iff (hnames.erase first.1)).2 ⟨rfl, hnodup, fun part hpart => ?_⟩
        refine hnames.mem_erase_iff.2 ⟨fun heq => hnotMem ?_, hown part hpart⟩
        exact List.mem_map.2 ⟨part, hpart, heq⟩

/-- The parts are those of the formula: one tells its kind, and the others are fields of that kind,
none repeated, that give the formula. -/
def Makes (nested : Bool) (parts : List (Option String × Part)) (formula : Formula) : Prop :=
  ∃ kind tag own, parts.Perm ((some kindField, tag) :: named own)
    ∧ tag.kind? nested = some kind
    ∧ (own.map Prod.fst).Nodup ∧ (∀ part ∈ own, part.1 ∈ kind.fields)
    ∧ ofParts kind own = some formula

theorem kindField_notMem_fields (kind : Kind) : kindField ∉ kind.fields := by
  cases kind <;> decide

theorem nodup_fields (kind : Kind) : kind.fields.Nodup := by
  cases kind <;> decide

/-- Names tell the kind from the other fields. -/
theorem filter_named {kind : Kind} {own : List (String × Part)}
    (h : ∀ part ∈ own, part.1 ∈ kind.fields) :
    (named own).filter (fun part => part.1 == some kindField) = []
      ∧ (named own).filter (fun part => part.1 != some kindField) = named own := by
  have hname (part : Option String × Part) (hpart : part ∈ named own) :
      part.1 ≠ some kindField := by
    obtain ⟨found, hfound, rfl⟩ := List.mem_map.1 hpart
    exact fun heq => kindField_notMem_fields kind (Option.some.inj heq ▸ h found hfound)
  exact ⟨List.filter_eq_nil_iff.2 fun part hpart => by simpa using hname part hpart,
    List.filter_eq_self.2 fun part hpart => by simpa using hname part hpart⟩

theorem ofFields_eq_some_iff {nested : Bool} {parts : List (Option String × Part)}
    {formula : Formula} :
    ofFields nested parts = some formula ↔ Makes nested parts formula := by
  have hsplit := List.filter_append_perm (fun part => part.1 == some kindField) parts
  constructor
  · intro h
    unfold ofFields at h
    split at h
    · rename_i name tag hfilter
      simp only [Option.bind_eq_bind, Option.bind_eq_some_iff] at h
      obtain ⟨kind, hkind, own, hown, hparts⟩ := h
      obtain ⟨heq, hnodup, hown⟩ := (declared_eq_some_iff (nodup_fields kind)).1 hown
      have hname : name = some kindField := by
        have hmem : (name, tag) ∈ parts.filter fun part => part.1 == some kindField := by
          rw [hfilter]
          exact List.mem_cons_self
        simpa using (List.mem_filter.1 hmem).2
      subst hname
      refine ⟨kind, tag, own, ?_, hkind, hnodup, hown, hparts⟩
      rw [← heq]
      rw [hfilter] at hsplit
      exact hsplit.symm
    · cases h
  · rintro ⟨kind, tag, own, hperm, hkind, hnodup, hown, hparts⟩
    obtain ⟨hnone, hall⟩ := filter_named hown
    have htag : parts.filter (fun part => part.1 == some kindField) = [(some kindField, tag)] := by
      refine List.perm_singleton.1 ((hperm.filter _).trans ?_)
      rw [List.filter_cons_of_pos (by simp), hnone]
    have hrest : (parts.filter fun part => part.1 != some kindField).Perm (named own) := by
      refine (hperm.filter _).trans ?_
      rw [List.filter_cons_of_neg (by simp), hall]
    obtain ⟨own', hown', hpermOwn⟩ : ∃ own', parts.filter (fun part => part.1 != some kindField)
        = named own' ∧ own'.Perm own :=
      (congrFun (congrFun (List.eq_map_comp_perm _) _) own).mpr hrest
    have hdeclared : declared kind.fields (named own') = some own' :=
      (declared_eq_some_iff (nodup_fields kind)).2 ⟨rfl, (hpermOwn.map Prod.fst).nodup_iff.2 hnodup,
        fun part hpart => hown part (hpermOwn.mem_iff.1 hpart)⟩
    rw [ofFields, htag]
    simp only [hkind, hown', hdeclared, ofParts_perm hnodup hpermOwn, Option.bind_eq_bind,
      Option.bind_some, hparts]

namespace Makes

variable {nested : Bool} {parts : List (Option String × Part)} {formula : Formula}

/-- The order of the fields does not matter. -/
theorem perm (h : Makes nested parts formula) {parts' : List (Option String × Part)}
    (hperm : parts'.Perm parts) : Makes nested parts' formula := by
  obtain ⟨kind, tag, own, hparts, hrest⟩ := h
  exact ⟨kind, tag, own, hperm.trans hparts, hrest⟩

theorem nodup (h : Makes nested parts formula) : (parts.map Prod.fst).Nodup := by
  obtain ⟨kind, tag, own, hparts, -, hnodup, hown, -⟩ := h
  refine (hparts.map Prod.fst).nodup_iff.2 ?_
  have hnames : (named own).map Prod.fst = (own.map Prod.fst).map some := by simp [named]
  rw [List.map_cons, hnames]
  refine List.nodup_cons.2 ⟨fun hmem => ?_, hnodup.map fun _ _ => Option.some.inj⟩
  obtain ⟨name, hname, heq⟩ := List.mem_map.1 hmem
  obtain ⟨part, hpart, rfl⟩ := List.mem_map.1 hname
  exact kindField_notMem_fields kind (Option.some.inj heq ▸ hown part hpart)

/-- One field tells the kind, and all others are fields of that kind. -/
theorem exists_kind (h : Makes nested parts formula) :
    ∃ kind tag, (some kindField, tag) ∈ parts ∧ tag.kind? nested = some kind
      ∧ ∀ part ∈ parts, ∃ name, part.1 = some name ∧ (name = kindField ∨ name ∈ kind.fields) := by
  obtain ⟨kind, tag, own, hparts, hkind, -, hown, -⟩ := h
  refine ⟨kind, tag, hparts.mem_iff.2 List.mem_cons_self, hkind, fun part hpart => ?_⟩
  obtain rfl | hpart := List.mem_cons.1 (hparts.mem_iff.1 hpart)
  · exact ⟨kindField, rfl, .inl rfl⟩
  · obtain ⟨found, hfound, rfl⟩ := List.mem_map.1 hpart
    exact ⟨found.1, rfl, .inr (hown found hfound)⟩

theorem ne_other (h : Makes nested parts formula) : ∀ part ∈ parts, part.2 ≠ .other := by
  obtain ⟨kind, tag, own, hparts, hkind, hnodup, hown, hformula⟩ := h
  intro part hpart hother
  obtain rfl | hpart := List.mem_cons.1 (hparts.mem_iff.1 hpart)
  · rw [show tag = .other from hother] at hkind
    cases hkind
  · obtain ⟨⟨name, found⟩, hfound, rfl⟩ := List.mem_map.1 hpart
    cases (hother : found = .other)
    exact lookup_ne_other hformula (hown _ hfound) ((lookup_eq_some_iff_mem hnodup).2 hfound)

end Makes

theorem map_fst_zip_sublist {α β : Type} : ∀ (as : List α) (bs : List β),
    ((as.zip bs).map Prod.fst).Sublist as
  | [], _ => by simp
  | _ :: _, [] => by simp
  | a :: as, _ :: bs => (map_fst_zip_sublist as bs).cons_cons a

/-- The items of a formula that is given as an array are things that fields of a formula can be. -/
theorem ne_other_of_ofItems {nested : Bool} {parts : List Part} {formula : Formula}
    (h : ofItems nested parts = some formula) : ∀ part ∈ parts, part ≠ .other := by
  cases parts with
  | nil => cases h
  | cons tag parts =>
    simp only [ofItems, Option.bind_eq_bind, Option.bind_eq_some_iff] at h
    obtain ⟨kind, hkind, hformula⟩ := h
    split_ifs at hformula with hlength
    rintro part hpart rfl
    obtain rfl | hpart := List.mem_cons.1 hpart
    · cases hkind
    · have hnodup := (nodup_fields kind).sublist (map_fst_zip_sublist kind.fields parts)
      rw [← List.map_snd_zip hlength] at hpart
      obtain ⟨⟨name, part⟩, hmem, rfl⟩ := List.mem_map.1 hpart
      exact lookup_ne_other hformula (List.of_mem_zip hmem).1
        ((lookup_eq_some_iff_mem hnodup).2 hmem)

/-! ## Formulas inside formulas -/

/-- The formula that a value is read as, at the root or below. -/
def readAt (nested : Bool) : Json → Except DocumentFault Formula
  | .array items => (ofItems nested (itemParts items)).elim (.error .unreadable) .ok
  | .object fields => (ofFields nested (fieldParts fields)).elim (.error .unreadable) .ok
  | _ => .error .unreadable

theorem read_eq_readAt (value : Json) : read value = readAt false value := by
  cases value with
  | array items =>
    rw [read, ofJson?, readAt]
    cases ofItems false (itemParts items) <;> rfl
  | object fields =>
    rw [read, ofJson?, readAt]
    cases ofFields false (fieldParts fields) <;> rfl
  | null | bool | natural | number | string | cut => rfl

theorem readAt_array_eq_ok_iff {nested : Bool} {items : List Json} {formula : Formula} :
    readAt nested (.array items) = .ok formula
      ↔ ofItems nested (itemParts items) = some formula := by
  rw [readAt]
  cases ofItems nested (itemParts items) <;> simp

theorem readAt_object_eq_ok_iff {nested : Bool} {fields : List (Option String × Json)}
    {formula : Formula} :
    readAt nested (.object fields) = .ok formula ↔ Makes nested (fieldParts fields) formula := by
  rw [readAt, ← ofFields_eq_some_iff]
  cases ofFields nested (fieldParts fields) <;> simp

theorem toPart_eq {value : Json} (h : value.IsCompound) :
    toPart value = Part.ofFormula? (readAt true value).toOption := by
  cases value with
  | array items =>
    rw [toPart, readAt]
    cases ofItems true (itemParts items) <;> rfl
  | object fields =>
    rw [toPart, readAt]
    cases ofFields true (fieldParts fields) <;> rfl
  | null | bool | natural | number | string | cut => exact h.elim

theorem itemParts_eq_map (items : List Json) : itemParts items = items.map toPart := by
  induction items with
  | nil => rfl
  | cons item items ih => rw [itemParts, ih, List.map_cons]

theorem fieldParts_eq_map (fields : List (Option String × Json)) :
    fieldParts fields = fields.map fun field => (field.1, toPart field.2) := by
  induction fields with
  | nil => rfl
  | cons field fields ih => rw [fieldParts, ih, List.map_cons]

theorem map_fst_fieldParts (fields : List (Option String × Json)) :
    (fieldParts fields).map Prod.fst = fields.map Prod.fst := by
  rw [fieldParts_eq_map, List.map_map]
  rfl

/-- A part that is a formula turns into the same one, or into what no field can be. -/
theorem toPart_of_turns {kept : Bool} {value value' : Json} (hvalue : value.IsCompound)
    (hvalue' : value'.IsCompound) (h : Turns kept (readAt true value) (readAt true value'))
    (hpart : toPart value ≠ .other) :
    toPart value' = if kept then toPart value else .other := by
  rw [toPart_eq hvalue] at hpart ⊢
  rw [toPart_eq hvalue']
  rcases hread : readAt true value with fault | formula
  · rw [hread] at hpart
    exact absurd rfl hpart
  have hturns := h formula hread
  cases kept with
  | true => rw [show readAt true value' = _ from hturns, if_pos rfl]
  | false =>
    rcases hread' : readAt true value' with fault | formula'
    · rfl
    · exact absurd hread' (hturns formula')

/-- A formula with another field. -/
theorem turns_field {kept nested : Bool} {value value' : Json} {name : Option String}
    {before after : List (Option String × Json)} (hvalue : value.IsCompound)
    (hvalue' : value'.IsCompound) (h : Turns kept (readAt true value) (readAt true value')) :
    Turns kept (readAt nested (.object (before ++ (name, value) :: after)))
      (readAt nested (.object (before ++ (name, value') :: after))) := by
  intro formula hformula
  have hmakes := readAt_object_eq_ok_iff.1 hformula
  have hmem (value : Json) :
      (name, toPart value) ∈ fieldParts (before ++ (name, value) :: after) := by
    simp [fieldParts_eq_map]
  have hpart := toPart_of_turns hvalue hvalue' h (hmakes.ne_other _ (hmem value))
  cases kept with
  | true =>
    refine readAt_object_eq_ok_iff.2 ?_
    rw [fieldParts_eq_map, List.map_append, List.map_cons] at hmakes ⊢
    rw [hpart]
    exact hmakes
  | false =>
    intro formula' hformula'
    exact (readAt_object_eq_ok_iff.1 hformula').ne_other _ (hmem value') hpart

/-- A formula with another item. -/
theorem turns_item {kept nested : Bool} {value value' : Json} {before after : List Json}
    (hvalue : value.IsCompound) (hvalue' : value'.IsCompound)
    (h : Turns kept (readAt true value) (readAt true value')) :
    Turns kept (readAt nested (.array (before ++ value :: after)))
      (readAt nested (.array (before ++ value' :: after))) := by
  intro formula hformula
  have hitems := readAt_array_eq_ok_iff.1 hformula
  have hmem (value : Json) : toPart value ∈ itemParts (before ++ value :: after) := by
    simp [itemParts_eq_map]
  have hpart := toPart_of_turns hvalue hvalue' h (ne_other_of_ofItems hitems _ (hmem value))
  cases kept with
  | true =>
    refine readAt_array_eq_ok_iff.2 ?_
    rw [itemParts_eq_map, List.map_append, List.map_cons] at hitems ⊢
    rw [hpart]
    exact hitems
  | false =>
    intro formula' hformula'
    exact ne_other_of_ofItems (readAt_array_eq_ok_iff.1 hformula') _ (hmem value') hpart

/-- The fields of a formula are put in another order. -/
theorem turns_perm {nested : Bool} {fields fields' : List (Option String × Json)}
    (hperm : fields'.Perm fields) :
    Turns true (readAt nested (.object fields)) (readAt nested (.object fields')) := by
  intro formula hformula
  refine readAt_object_eq_ok_iff.2 ((readAt_object_eq_ok_iff.1 hformula).perm ?_)
  rw [fieldParts_eq_map, fieldParts_eq_map]
  exact hperm.map _

/-- The names that a formula with the given fields may have for its fields: that of the field that
tells the kind, and those of the kind. -/
def Declares (nested : Bool) (fields : List (Option String × Json)) (name : String) : Prop :=
  name = kindField ∨ ∃ tag kind, (some kindField, tag) ∈ fields
    ∧ (toPart tag).kind? nested = some kind ∧ name ∈ kind.fields

/-- No formula has a field that its kind does not declare or two fields of one name. -/
theorem readAt_extended_ne_ok {nested : Bool} {before after : List (Option String × Json)}
    {name : Option String} {value : Json}
    (h : ∀ known, name = some known → ¬ Declares nested (before ++ after) known
      ∨ some known ∈ (before ++ after).map Prod.fst) (formula : Formula) :
    readAt nested (.object (before ++ (name, value) :: after)) ≠ .ok formula := by
  intro hformula
  have hmakes := readAt_object_eq_ok_iff.1 hformula
  obtain ⟨kind, tag, htag, hkind, hall⟩ := hmakes.exists_kind
  obtain ⟨known, hknown, hdeclared⟩ :=
    hall (name, toPart value) (by simp [fieldParts_eq_map])
  cases (hknown : name = some known)
  obtain hundeclared | hrepeated := h known rfl
  · obtain rfl | hdeclared := hdeclared
    · exact hundeclared (.inl rfl)
    -- The new field is one of the kind, so it is another one that tells the kind.
    rw [fieldParts_eq_map] at htag
    obtain ⟨⟨other, found⟩, hmem, heq⟩ := List.mem_map.1 htag
    obtain ⟨rfl, rfl⟩ := Prod.mk.inj heq
    obtain heq | hmem := List.mem_cons.1 (List.perm_middle.mem_iff.1 hmem)
    · cases heq
      exact kindField_notMem_fields kind hdeclared
    · exact hundeclared (.inr ⟨found, kind, hmem, hkind, hdeclared⟩)
  · have hnames := (List.perm_middle.map Prod.fst).nodup_iff.1 (map_fst_fieldParts _ ▸ hmakes.nodup)
    exact (List.nodup_cons.1 hnames).1 hrepeated

end Formula

end Landmark
