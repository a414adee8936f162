import Mathlib.Tactic.Common
import Landmark.Document.Edit

/-!
# Edits made of single changes

An edit is composed when it does nothing to a document but look at it and call the nine changes,
in whatever order, going on after failures or not. Whether it fails or not, a composed edit leaves
the document alone or marks it as changed (`Composed.marks`).
-/

namespace Landmark

namespace Edit

/-- The document that an edit leaves, whether it fails or not. -/
def left {α : Type} (edit : Edit α) (document : Document) : Document :=
  match edit document with
  | .ok _ document => document
  | .error _ document => document

theorem left_bind {α β : Type} (edit : Edit α) (next : α → Edit β) (document : Document) :
    (edit >>= next).left document = match edit document with
      | .ok a first => (next a).left first
      | .error _ first => first := by
  change left (EStateM.bind edit next) document = _
  unfold left EStateM.bind
  cases edit document <;> rfl

theorem left_tryCatch {α : Type} (edit : Edit α) (handler : Error → Edit α) (document : Document) :
    (tryCatch edit handler).left document = match edit document with
      | .ok _ first => first
      | .error e first => (handler e).left first := by
  change left (EStateM.tryCatch edit handler) document = _
  unfold left EStateM.tryCatch
  cases edit document <;> rfl

/-- Edits that are made of the changes of one entry. -/
inductive Composed : {α : Type} → Edit α → Prop
  | pure {α : Type} (a : α) : Composed (Pure.pure a)
  | throw {α : Type} (error : Error) : Composed (α := α) (MonadExcept.throw error)
  | bind {α β : Type} {edit : Edit α} {next : α → Edit β} :
    Composed edit → (∀ a, Composed (next a)) → Composed (edit >>= next)
  | tryCatch {α : Type} {edit : Edit α} {handler : Error → Edit α} :
    Composed edit → (∀ error, Composed (handler error)) →
      Composed (MonadExcept.tryCatch edit handler)
  | get : Composed MonadState.get
  | addPattern (entry : PatternEntry) : Composed (addPattern entry)
  | replacePattern (index : Nat) (entry : PatternEntry) : Composed (replacePattern index entry)
  | removePattern (name : String) : Composed (removePattern name)
  | setCached (index : Nat) (cached : Option Finding) : Composed (setCached index cached)
  | addOffset (entry : OffsetEntry) : Composed (addOffset entry)
  | replaceOffset (index : Nat) (entry : OffsetEntry) : Composed (replaceOffset index entry)
  | removeOffset (name : String) : Composed (removeOffset name)
  | setOperation (index : Nat) (operation : Option Formula) :
    Composed (setOperation index operation)
  | convertToBinary (index : Nat) : Composed (convertToBinary index)

/-- Edits that do not change a document without marking it. -/
def Marks {α : Type} (edit : Edit α) : Prop :=
  ∀ document, edit.left document = document ∨ (edit.left document).dirty = true

namespace Marks

variable {α β : Type}

theorem pure (a : α) : Marks (Pure.pure a) := fun _ => .inl rfl

theorem throw (error : Error) : Marks (α := α) (MonadExcept.throw error) := fun _ => .inl rfl

theorem get : Marks MonadState.get := fun _ => .inl rfl

theorem change (f : Document → Document) : Marks (Edit.change f) := fun _ => .inr rfl

/-- Marks of the second edit stand after the first, and nothing takes a mark away. -/
theorem after {first second document : Document}
    (h : first = document ∨ first.dirty = true) (h' : second = first ∨ second.dirty = true) :
    second = document ∨ second.dirty = true := by
  rcases h' with rfl | hdirty
  · exact h
  · exact .inr hdirty

theorem bind {edit : Edit α} {next : α → Edit β} (h : Marks edit) (hnext : ∀ a, Marks (next a)) :
    Marks (edit >>= next) := by
  intro document
  have hfirst := h document
  rw [left_bind]
  unfold left at hfirst
  cases hedit : edit document with
  | ok a first =>
    rw [hedit] at hfirst
    exact after hfirst (hnext a first)
  | error e first =>
    rw [hedit] at hfirst
    exact hfirst

theorem tryCatch {edit : Edit α} {handler : Error → Edit α} (h : Marks edit)
    (hhandler : ∀ error, Marks (handler error)) : Marks (MonadExcept.tryCatch edit handler) := by
  intro document
  have hfirst := h document
  rw [left_tryCatch]
  unfold left at hfirst
  cases hedit : edit document with
  | ok a first =>
    rw [hedit] at hfirst
    exact hfirst
  | error e first =>
    rw [hedit] at hfirst
    exact after hfirst (hhandler e first)

end Marks

theorem Composed.marks {α : Type} {edit : Edit α} (h : Composed edit) : Marks edit := by
  induction h with
  | pure a => exact .pure a
  | throw error => exact .throw error
  | get => exact .get
  | bind _ _ ih ihnext => exact .bind ih ihnext
  | tryCatch _ _ ih ihhandler => exact .tryCatch ih ihhandler
  | addPattern entry | addOffset entry =>
    refine .bind .get fun document => ?_
    split_ifs
    · exact .throw _
    · exact .bind (.change _) fun _ => .pure _
  | replacePattern index entry | replaceOffset index entry =>
    refine .bind .get fun document => ?_
    split_ifs
    · exact .throw _
    · split
      · exact .throw _
      · exact .bind (.change _) fun _ => .pure _
  | removePattern name | removeOffset name =>
    refine .bind .get fun document => ?_
    split
    · exact .pure _
    · exact .bind (.change _) fun _ => .pure _
  | setCached index cached | setOperation index operation | convertToBinary index =>
    refine .bind .get fun document => ?_
    split
    · exact .throw _
    · exact .change _

/-- A composed edit that leaves the document unmarked has not changed it. -/
theorem Composed.eq_of_unmarked {α : Type} {edit : Edit α} {document document' : Document} {a : α}
    (h : Composed edit) (hok : edit document = .ok a document') (hclean : document'.dirty = false) :
    document' = document := by
  have hmarks := h.marks document
  rw [left, hok] at hmarks
  rcases hmarks with heq | hdirty
  · exact heq
  · rw [hclean] at hdirty
    cases hdirty

end Edit

end Landmark
