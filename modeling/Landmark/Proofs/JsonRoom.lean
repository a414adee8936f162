import Landmark.Proofs.JsonLevels

/-!
# The room that a value needs

A value that some text holds is read from that text whenever there is room for its levels, and with
less room the reading is cut off (`ofText_room`). So what a text holds does not depend on the room
that it was found with.
-/

namespace Landmark.Json

open Grammar

/-- With room for so many levels or more `found` is read; with less the reading is cut off. -/
def Needs {α : Type} (levels : Nat) (read : Nat → α × Option (List Char))
    (found : α × Option (List Char)) : Prop :=
  ∀ room, (levels ≤ room → read room = found) ∧ (room < levels → (read room).2 = none)

namespace Needs

variable {α β : Type} {read : Nat → α × Option (List Char)} {found : α × Option (List Char)}

theorem zero (h : ∀ room, read room = found) : Needs 0 read found :=
  fun room => ⟨fun _ => h room, fun hroom => absurd hroom (Nat.not_lt_zero room)⟩

/-- What is there without reading needs no room. -/
theorem fixed (found : α × Option (List Char)) : Needs 0 (fun _ => found) found :=
  zero fun _ => rfl

/-- A level of its own around what is read. -/
theorem succ {inner : Nat → β × Option (List Char)} {wrap : β → α} {levels : Nat} {value : β}
    {rest : List Char} (hzero : (read 0).2 = none)
    (hsucc : ∀ room, read (room + 1) = (wrap (inner room).1, (inner room).2))
    (h : Needs levels inner (value, some rest)) :
    Needs (levels + 1) read (wrap value, some rest)
  | 0 => ⟨fun hroom => absurd hroom (Nat.not_succ_le_zero levels), fun _ => hzero⟩
  | room + 1 => by
    rw [hsucc]
    refine ⟨fun hroom => ?_, fun hroom => (h room).2 (Nat.lt_of_succ_lt_succ hroom)⟩
    rw [(h room).1 (Nat.le_of_succ_le_succ hroom)]

/-- One thing is read after another. -/
theorem append {γ : Type} {first : Nat → β × Option (List Char)}
    {second : Nat → α × Option (List Char)}
    {m n : Nat} {value : β} {more : α} {rest after : List Char}
    {read : Nat → γ × Option (List Char)} (join : β → α → γ)
    (hcut : ∀ room, (first room).2 = none → (read room).2 = none)
    (hread : ∀ room, first room = (value, some rest) →
      read room = (join value (second room).1, (second room).2))
    (hfirst : Needs m first (value, some rest)) (hsecond : Needs n second (more, some after)) :
    Needs (max m n) read (join value more, some after) := by
  intro room
  refine ⟨fun hroom => ?_, fun hroom => ?_⟩
  · rw [hread room ((hfirst room).1 (le_trans (le_max_left _ _) hroom)),
      (hsecond room).1 (le_trans (le_max_right _ _) hroom)]
  · by_cases hdeep : room < m
    · exact hcut room ((hfirst room).2 hdeep)
    · rw [hread room ((hfirst room).1 (Nat.le_of_not_lt hdeep))]
      exact (hsecond room).2 (by omega)

end Needs

variable {fuel room : Nat} {cs rest : List Char}

/-- The items and the fields that are read with some fuel need room for their levels. -/
def LevelsNeeded (fuel : Nat) : Prop :=
  (∀ {room cs items rest}, Grammar.items fuel room cs = (items, some rest) →
    Needs (itemsDepth items) (Grammar.items fuel · cs) (items, some rest))
  ∧ ∀ {room cs fields rest}, Grammar.fields fuel room cs = (fields, some rest) →
    Needs (fieldsDepth fields) (Grammar.fields fuel · cs) (fields, some rest)

theorem needs_bracket {found : Json} {inner : List Char} (hfuel : LevelsNeeded fuel)
    (hskip : skipSpace cs = '[' :: inner) (h : value (fuel + 1) room cs = (found, some rest)) :
    Needs found.depth (value (fuel + 1) · cs) (found, some rest) := by
  have hread (room : Nat) : value (fuel + 1) room cs = value (fuel + 1) room ('[' :: inner) :=
    value_skipSpace _ _ (by rw [hskip, skipSpace_of_not_isSpace (by decide)])
  have hzero : (value (fuel + 1) 0 cs).2 = none := by rw [hread, value_of_no_room _ (.inl rfl)]
  cases room with
  | zero =>
    rw [h] at hzero
    cases hzero
  | succ room =>
    rw [hread, value_bracket_eq] at h
    split at h
    · rename_i after hempty
      cases h
      refine .succ hzero (fun room => ?_) (.fixed (([] : List Json), some rest))
      rw [hread, value_bracket_eq, hempty]
      rfl
    · rename_i hne
      obtain ⟨rfl, hrest⟩ := Prod.mk.inj h
      refine .succ hzero (fun room => ?_) (hfuel.1 (Prod.ext rfl hrest))
      rw [hread, value_bracket hne]

theorem needs_brace {found : Json} {inner : List Char} (hfuel : LevelsNeeded fuel)
    (hskip : skipSpace cs = '{' :: inner) (h : value (fuel + 1) room cs = (found, some rest)) :
    Needs found.depth (value (fuel + 1) · cs) (found, some rest) := by
  have hread (room : Nat) : value (fuel + 1) room cs = value (fuel + 1) room ('{' :: inner) :=
    value_skipSpace _ _ (by rw [hskip, skipSpace_of_not_isSpace (by decide)])
  have hzero : (value (fuel + 1) 0 cs).2 = none := by rw [hread, value_of_no_room _ (.inr rfl)]
  cases room with
  | zero =>
    rw [h] at hzero
    cases hzero
  | succ room =>
    rw [hread, value_brace_eq] at h
    split at h
    · rename_i after hempty
      cases h
      refine .succ hzero (fun room => ?_)
        (.fixed (([] : List (Option String × Json)), some rest))
      rw [hread, value_brace_eq, hempty]
      rfl
    · rename_i hne
      obtain ⟨rfl, hrest⟩ := Prod.mk.inj h
      refine .succ hzero (fun room => ?_) (hfuel.2 (Prod.ext rfl hrest))
      rw [hread, value_brace hne]

theorem needs_value {found : Json} (hfuel : LevelsNeeded fuel)
    (h : value (fuel + 1) room cs = (found, some rest)) :
    Needs found.depth (value (fuel + 1) · cs) (found, some rest) := by
  by_cases hbracket : ∃ inner, skipSpace cs = '[' :: inner
  · obtain ⟨inner, hskip⟩ := hbracket
    exact needs_bracket hfuel hskip h
  by_cases hbrace : ∃ inner, skipSpace cs = '{' :: inner
  · obtain ⟨inner, hskip⟩ := hbrace
    exact needs_brace hfuel hskip h
  have hatom (room : Nat) : value (fuel + 1) room cs
      = ((atom (skipSpace cs)).elim (.cut, none) fun read => (read.1, some read.2)) := by
    rw [value]
    split
    · rename_i inner heq
      exact absurd ⟨inner, heq⟩ hbracket
    · rename_i inner heq
      exact absurd ⟨inner, heq⟩ hbrace
    · cases atom (skipSpace cs) <;> rfl
  rw [hatom] at h
  rcases hread : atom (skipSpace cs) with _ | ⟨read, after⟩ <;> rw [hread] at h
  · cases h
  · cases h
    rw [depth_atom hread]
    refine .zero fun room => ?_
    rw [hatom, hread]
    rfl

theorem needs_items {items : List Json} (hfuel : LevelsNeeded fuel)
    (hvalue : ∀ {room cs found rest}, value fuel room cs = (found, some rest) →
      Needs found.depth (value fuel · cs) (found, some rest))
    (h : Grammar.items (fuel + 1) room cs = (items, some rest)) :
    Needs (itemsDepth items) (Grammar.items (fuel + 1) · cs) (items, some rest) := by
  rw [Grammar.items] at h
  split at h
  · cases h
  · rename_i item more hitem
    have hneeds := hvalue hitem
    split at h
    · rename_i after hcomma
      obtain ⟨rfl, hrest⟩ := Prod.mk.inj h
      refine .append List.cons (fun room => items_cut) (fun room hroom => ?_) hneeds
        (hfuel.1 (Prod.ext rfl hrest))
      rw [Grammar.items, hroom]
      simp only [hcomma]
    · rename_i after hclose
      cases h
      refine .append List.cons (fun room => items_cut) (fun room hroom => ?_) hneeds
        (.fixed ([], some rest))
      exact items_last hroom hclose
    · cases h

theorem needs_fields {fields : List (Option String × Json)} (hfuel : LevelsNeeded fuel)
    (hvalue : ∀ {room cs found rest}, value fuel room cs = (found, some rest) →
      Needs found.depth (value fuel · cs) (found, some rest))
    (h : Grammar.fields (fuel + 1) room cs = (fields, some rest)) :
    Needs (fieldsDepth fields) (Grammar.fields (fuel + 1) · cs) (fields, some rest) := by
  rw [Grammar.fields] at h
  split at h
  · cases h
  · rename_i name inner hname
    have hcut (room : Nat) (hroom : (value fuel room inner).2 = none) :
        (Grammar.fields (fuel + 1) room cs).2 = none := by rw [fields_cut hname hroom]
    split at h
    · cases h
    · rename_i found more hfound
      have hneeds := hvalue hfound
      split at h
      · rename_i after hcomma
        obtain ⟨rfl, hrest⟩ := Prod.mk.inj h
        refine .append (fun found more => (name, found) :: more) hcut (fun room hroom => ?_) hneeds
          (hfuel.2 (Prod.ext rfl hrest))
        rw [Grammar.fields, hname]
        simp only [hroom, hcomma]
      · rename_i after hclose
        cases h
        refine .append (fun found more => (name, found) :: more) hcut (fun room hroom => ?_) hneeds
          (.fixed ([], some rest))
        exact fields_last hname hroom hclose
      · cases h

theorem levelsNeeded : ∀ fuel, LevelsNeeded fuel
    ∧ ∀ {room cs found rest}, value fuel room cs = (found, some rest) →
      Needs found.depth (value fuel · cs) (found, some rest) := by
  intro fuel
  induction fuel with
  | zero =>
    refine ⟨⟨fun h => ?_, fun h => ?_⟩, fun h => ?_⟩
    · rw [Grammar.items] at h
      cases h
    · rw [Grammar.fields] at h
      cases h
    · rw [value] at h
      cases h
  | succ fuel ih => exact ⟨⟨needs_items ih.1 ih.2, needs_fields ih.1 ih.2⟩, needs_value ih.1⟩

/-- A text that holds a value holds it with room for its levels or more, and is cut off with less.
-/
theorem ofText_room {room : Nat} {cs : List Char} {found : Json}
    (h : ofText room cs = (found, true)) (room' : Nat) :
    (found.depth ≤ room' → ofText room' cs = (found, true))
      ∧ (room' < found.depth → (ofText room' cs).2 = false) := by
  unfold ofText at h
  split at h
  · cases h
  · rename_i value rest hvalue
    obtain ⟨rfl, hrest⟩ := Prod.mk.inj h
    obtain ⟨hread, hcut⟩ := (levelsNeeded _).2 hvalue room'
    dsimp only at hread hcut
    refine ⟨fun hroom => ?_, fun hroom => ?_⟩
    · rw [ofText, hread hroom, ← hrest]
    · have hnone := hcut hroom
      unfold ofText
      split
      · rfl
      · rename_i heq
        rw [heq] at hnone
        cases hnone

end Landmark.Json
