import Mathlib.Tactic.Common
import Landmark.Proofs.Calls
import Landmark.Store.Files

/-!
# Stores that hold what was saved

A store keeps what it holds if no call of it fails and nothing but a save changes what a load gives
(`Store.Keeping`). Nothing is said of the times that it tells. A store whose calls never fail is
such a store, and so is a file that is there or can be made (`FileStore.keeping`): writing it leaves
the way to it as it was.
-/

namespace Landmark

/-- Whether a store, while it holds a content, gives it to every load and fails at no call, and
holds another content as soon as that was saved. -/
structure Store.Keeping {σ : Type} [Store σ] (Holds : ByteArray → σ → Prop) : Prop where
  lastModified : ∀ {content : ByteArray} {store : σ}, Holds content store →
    ∃ time store', Store.lastModified store = .ok time store' ∧ Holds content store'
  load : ∀ {content : ByteArray} {store : σ}, Holds content store →
    ∃ store', Store.load store = .ok content store' ∧ Holds content store'
  save : ∀ {content : ByteArray} {store : σ}, Holds content store → ∀ content',
    ∃ store', Store.save content' store = .ok () store' ∧ Holds content' store'

theorem Store.keeping_of_dependable (σ : Type) [Store σ] [Dependable σ] :
    Store.Keeping fun content (store : σ) => Dependable.bytes store = content where
  lastModified h := ⟨_, _, Dependable.lastModified_eq _, h⟩
  load h := by
    cases h
    exact ⟨_, Dependable.load_eq _, Dependable.bytes_loaded _⟩
  save _ content' := ⟨_, Dependable.save_eq _ _, Dependable.bytes_saved _ _⟩

/-! ## Files -/

namespace FileTree

variable {tree : FileTree} {location : Location}

theorem lookup_filter_ne {other : Location} (h : other ≠ location) :
    ∀ nodes : List (Location × Node),
      (nodes.filter fun entry => entry.1 ≠ location).lookup other = nodes.lookup other
  | [] => rfl
  | (first, node) :: nodes => by
    have ih := lookup_filter_ne h nodes
    by_cases hfirst : first = location
    · subst hfirst
      rw [List.filter_cons_of_neg (by simp), ih, List.lookup_cons, beq_false_of_ne h]
    · rw [List.filter_cons_of_pos (by simpa using hfirst), List.lookup_cons, List.lookup_cons, ih]

theorem node?_put_self (h : location ≠ []) (node : Node) :
    (tree.put location node).node? location = some node := by
  rw [node?, if_neg h, put, List.lookup_cons, beq_self_eq_true]

theorem node?_put_of_ne {other : Location} (h : other ≠ location) (node : Node) :
    (tree.put location node).node? other = tree.node? other := by
  rw [node?, node?, put, List.lookup_cons, beq_false_of_ne h]
  simp only [lookup_filter_ne h]

/-- The way to a directory does not lead through what is none. -/
theorem enter_put (hnode : tree.node? location ≠ some .directory) (node : Node)
    {above below : Location} {step : String} (h : tree.enter above step = .ok below) :
    (tree.put location node).enter above step = .ok below := by
  unfold enter at h ⊢
  split_ifs at h ⊢ <;> try exact h
  have hne : above ++ [step] ≠ location := by
    rintro rfl
    split at h
    · exact hnode ‹_›
    · cases h
    · cases h
  rwa [node?_put_of_ne hne]

theorem foldlM_enter_put (hnode : tree.node? location ≠ some .directory) (node : Node) :
    ∀ {steps : List String} {above below : Location},
      steps.foldlM tree.enter above = .ok below →
        steps.foldlM (tree.put location node).enter above = .ok below
  | [], _, _, h => h
  | step :: steps, above, below, h => by
    rw [List.foldlM_cons] at h ⊢
    rcases hstep : tree.enter above step with fault | next <;> rw [hstep] at h
    · cases h
    · rw [enter_put hnode node hstep]
      exact foldlM_enter_put hnode node h

theorem locate_eq_some_iff {path : Path} : tree.locate path = .ok (some location) ↔
    ∃ above name, path.hasZero = false ∧ path.size ≤ Path.textLimit ∧ path.name? = some name
      ∧ path.steps.dropLast.foldlM tree.enter [] = .ok above
      ∧ name.utf8ByteSize ≤ Path.nameLimit ∧ location = above ++ [name] := by
  unfold locate
  simp only [bind, Except.bind, pure, Except.pure, throw, throwThe, MonadExceptOf.throw]
  split_ifs with hzero hlong
  · simp [hzero]
  · simp [Nat.not_le.2 hlong]
  · rcases path.name? with _ | name
    · rcases path.steps.foldlM tree.enter [] with fault | above <;> simp
    · rcases path.steps.dropLast.foldlM tree.enter [] with fault | above
      · simp
      · by_cases hname : Path.nameLimit < name.utf8ByteSize
        · simp [hname, Nat.not_le.2 hname]
        · simp [hzero, hname, Nat.not_lt.1 hlong, Nat.not_lt.1 hname, eq_comm]

theorem locate_put (hnode : tree.node? location ≠ some .directory) (node : Node) {path : Path}
    (h : tree.locate path = .ok (some location)) :
    (tree.put location node).locate path = .ok (some location) := by
  obtain ⟨above, name, hzero, hsize, hname, habove, hshort, rfl⟩ := locate_eq_some_iff.1 h
  exact locate_eq_some_iff.2
    ⟨above, name, hzero, hsize, hname, foldlM_enter_put hnode node habove, hshort, rfl⟩

theorem ne_nil_of_locate {path : Path} (h : tree.locate path = .ok (some location)) :
    location ≠ [] := by
  obtain ⟨above, name, -, -, -, -, -, rfl⟩ := locate_eq_some_iff.1 h
  exact List.append_ne_nil_of_right_ne_nil above (List.cons_ne_nil name [])

theorem find_of_locate {path : Path} (h : tree.locate path = .ok (some location))
    (hslash : path.endsInSlash = false) : tree.find path
      = (tree.node? location).elim (.error (.system .absent)) .ok := by
  unfold find
  rw [h, hslash]
  rcases hnode : tree.node? location with _ | ⟨content, time⟩ | _ <;>
    simp only [bind, Except.bind, hnode] <;> rfl

theorem write_of_locate {path : Path} (h : tree.locate path = .ok (some location))
    (hnode : tree.node? location ≠ some .directory) (hslash : path.endsInSlash = false)
    (content : ByteArray) (now : Instant) :
    tree.write path content now = .ok (tree.put location (.file content now)) := by
  unfold write
  rw [h, hslash]
  rcases hfound : tree.node? location with _ | ⟨content', time⟩ | _
  · simp only [bind, Except.bind, hfound]
    rfl
  · simp only [bind, Except.bind, hfound]
    rfl
  · exact absurd hfound hnode

end FileTree

namespace FileStore

/-- Whether a store reads a content from its file, which is there or can be made. -/
structure Holds (content : ByteArray) (store : FileStore) : Prop where
  load : store.load = .ok content
  exists_locate : ∃ location, store.tree.locate store.path = .ok (some location)
    ∧ store.tree.node? location ≠ some .directory ∧ store.path.endsInSlash = false

variable {content : ByteArray} {store : FileStore}

theorem Holds.exists_lastModified (h : Holds content store) :
    ∃ time, store.lastModified = .ok time := by
  obtain ⟨location, hlocate, hnode, hslash⟩ := h.exists_locate
  rw [lastModified, FileTree.find_of_locate hlocate hslash]
  rcases hfound : store.tree.node? location with _ | ⟨content', time⟩ | _
  · exact ⟨_, rfl⟩
  · exact ⟨time, rfl⟩
  · exact absurd hfound hnode

theorem Holds.exists_save (h : Holds content store) (content' : ByteArray) :
    ∃ store', store.save content' = .ok store' ∧ Holds content' store' := by
  obtain ⟨location, hlocate, hnode, hslash⟩ := h.exists_locate
  have hput := FileTree.locate_put hnode (.file content' store.now) hlocate
  have hthere : (store.tree.put location (.file content' store.now)).node? location
      = some (.file content' store.now) :=
    FileTree.node?_put_self (FileTree.ne_nil_of_locate hlocate) _
  refine ⟨{ store with tree := store.tree.put location (.file content' store.now) }, ?_, ?_,
    location, hput, by rw [hthere]; simp, hslash⟩
  · rw [save, FileTree.write_of_locate hlocate hnode hslash]
  · rw [FileStore.load, FileTree.find_of_locate hput hslash, hthere]
    rfl

/-- A file holds what was written last. -/
theorem keeping : Store.Keeping Holds where
  lastModified {_ store} h := by
    obtain ⟨time, htime⟩ := h.exists_lastModified
    refine ⟨time, store, ?_, h⟩
    simp only [Store.lastModified, htime]
  load {_ store} h := by
    refine ⟨store, ?_, h⟩
    simp only [Store.load, h.load]
  save {_ store} h content' := by
    obtain ⟨store', hsave, hstore'⟩ := h.exists_save content'
    refine ⟨store', ?_, hstore'⟩
    simp only [Store.save, hsave]

end FileStore

end Landmark
