import Mathlib.Tactic.Common
import Landmark.Proofs.Denotation

/-!
# What an evaluation asks for

Over the built-in operators it can be read off a formula which patterns an evaluation looks up and
where it reads memory, and in which order: target before value, and the operands of a node before
the node (`Formula.queries`). An evaluation that fails stops somewhere on the way, at the latest
where a node has no operator or no memory to read; one that gives a text has asked for everything
(`Formula.evaluate_queries`).
-/

namespace Landmark

variable {σ α β : Type}

/-- What an evaluation comes to on its way. -/
inductive Query
  /-- The address of a pattern is looked up. -/
  | lookup (name : String)
  /-- A value is read from memory. -/
  | load
  /-- The evaluation cannot go on. -/
  | refuse
deriving DecidableEq, Repr

namespace Query

/-- The name of the pattern that is looked up. -/
def name? : Query → Option String
  | .lookup name => some name
  | _ => none

/-- The query that an event of the log tells of. -/
def ofEvent : Event → Query
  | .lookup name => .lookup name
  | .read _ _ => .load
  | _ => .refuse

end Query

/-- The queries that lead from one trail to another, each of them logged as it is made. -/
inductive Made (atlas : Atlas σ) : Trail σ → List Query → Trail σ → Prop
  | nil (s : Trail σ) : Made atlas s [] s
  | lookup {s t : Trail σ} {queries : List Query} (name : String) :
    Made atlas ((atlas name).final ⟨s.state, .lookup name :: s.log⟩) queries t →
      Made atlas s (.lookup name :: queries) t
  | load {s t : Trail σ} {queries : List Query} (address : UInt64) (size : Nat) :
    Made atlas ⟨s.state, .read address size :: s.log⟩ queries t →
      Made atlas s (.load :: queries) t

namespace Made

variable {atlas : Atlas σ} {s t u : Trail σ} {p q : List Query}

theorem append (h : Made atlas s p t) (h' : Made atlas t q u) : Made atlas s (p ++ q) u := by
  induction h with
  | nil => exact h'
  | lookup name _ ih => exact .lookup name (ih h')
  | load address size _ ih => exact .load address size (ih h')

theorem refuse_notMem (h : Made atlas s p t) : .refuse ∉ p := by
  induction h with
  | nil => exact List.not_mem_nil
  | lookup _ _ ih => simpa using ih
  | load _ _ _ ih => simpa using ih

/-- If lookups leave the log alone the queries can be read off it. -/
theorem exists_log_eq (hquiet : ∀ name u, ((atlas name).final u).log = u.log)
    (h : Made atlas s p t) : ∃ events, t.log = events ++ s.log
      ∧ events.reverse.map Query.ofEvent = p := by
  induction h with
  | nil => exact ⟨[], rfl, rfl⟩
  | lookup name _ ih =>
    obtain ⟨events, hlog, hqueries⟩ := ih
    rw [hquiet] at hlog
    exact ⟨events ++ [.lookup name], by simp [hlog], by simp [hqueries, Query.ofEvent]⟩
  | load address size _ ih =>
    obtain ⟨events, hlog, hqueries⟩ := ih
    exact ⟨events ++ [.read address size], by simp [hlog], by simp [hqueries, Query.ofEvent]⟩

end Made

/-- A task that makes some queries in order, and when it fails has made the first ones of them. -/
def Performs (atlas : Atlas σ) (queries : List Query) (task : Task σ α) : Prop :=
  ∀ s, ∃ made, Made atlas s made (task.final s) ∧ made <+: queries
    ∧ ∀ a, task.answer s = .ok a → made = queries

namespace Performs

variable {atlas : Atlas σ} {p q : List Query}

theorem pure (a : α) : Performs atlas [] (Pure.pure a : Task σ α) :=
  fun s => ⟨[], .nil s, List.nil_prefix, fun _ _ => rfl⟩

/-- A task that fails at once has made the first ones of any queries. -/
theorem throw (p : List Query) (e : Error) :
    Performs atlas p (MonadExcept.throw e : Task σ α) :=
  fun s => ⟨[], .nil s, List.nil_prefix, fun _ h => nomatch h⟩

theorem ofExcept : ∀ result : Except Error α,
    Performs atlas [] (Task.ofExcept result : Task σ α)
  | .ok a => pure a
  | .error e => throw [] e

theorem bind {m : Task σ α} {k : α → Task σ β} (hm : Performs atlas p m)
    (hk : ∀ a, Performs atlas q (k a)) : Performs atlas (p ++ q) (m >>= k) := by
  intro s
  obtain ⟨made, hmade, hprefix, hall⟩ := hm s
  rcases hend : m s with ⟨a, t⟩ | ⟨e, t⟩
  · have hanswer : m.answer s = .ok a := by rw [Task.answer, hend]
    obtain ⟨rest, hrest, hprefix', hall'⟩ := hk a t
    have hrun : (m >>= k) s = k a t := Task.bind_ok hend
    rw [Task.final_of_ok hend] at hmade
    refine ⟨p ++ rest, ?_, (List.prefix_append_right_inj p).2 hprefix', fun b hb => ?_⟩
    · rw [Task.final, hrun]
      exact hall a hanswer ▸ hmade.append hrest
    · rw [Task.answer, hrun] at hb
      rw [hall' b hb]
  · have hrun : (m >>= k) s = .error e t := Task.bind_error hend
    rw [Task.final_of_error hend] at hmade
    refine ⟨made, ?_, hprefix.trans (List.prefix_append p q), fun b hb => ?_⟩
    · rwa [Task.final_of_error hrun]
    · rw [Task.answer, hrun] at hb
      cases hb

theorem bind_quiet {m : Task σ α} {k : α → Task σ β} (hm : Performs atlas p m)
    (hk : ∀ a, Performs atlas [] (k a)) : Performs atlas p (m >>= k) := by
  rw [← List.append_nil p]
  exact hm.bind hk

theorem map {m : Task σ α} (hm : Performs atlas p m) (f : α → β) :
    Performs atlas p (f <$> m) := by
  rw [map_eq_pure_bind]
  exact hm.bind_quiet fun a => pure (f a)

theorem lookup (name : String) :
    Performs atlas [.lookup name] (do Task.record (.lookup name); atlas name) :=
  fun _ => ⟨[.lookup name], .lookup name (.nil _), List.prefix_rfl, fun _ _ => rfl⟩

theorem read (address : UInt64) (size : Nat) :
    Performs atlas [.load] (Task.record (.read address size) : Task σ Unit) :=
  fun _ => ⟨[.load], .load address size (.nil _), List.prefix_rfl, fun _ _ => rfl⟩

theorem load (memory : Memory) (address : UInt64) (width : LoadWidth) :
    Performs atlas [.load] (width.load memory address : Task σ UInt64) :=
  (ofExcept _).bind fun size =>
    (((read address size).bind fun _ => ofExcept _).bind fun _ => ofExcept _).bind fun _ => pure _

end Performs

namespace Formula

/-- The queries of a node, given those of its operands. `Lea` loads a value after them; a node
without an operator, or without memory to load from, comes to a refusal and nothing else. -/
def queriesOf (reads : Bool) (operator : String) (operands : List Query) : List Query :=
  if operator = "Add" then operands
  else if operator = "Lea" ∧ reads then operands ++ [.load]
  else [.refuse]

/-- The queries of a formula over the built-in operators, with or without memory to read. -/
def queries (reads : Bool) : Formula → List Query
  | .constant _ => []
  | .pattern name => [.lookup (Text.trim name)]
  | .unary operator _ operand => queriesOf reads operator (queries reads operand)
  | .binary operator target value =>
    queriesOf reads operator (queries reads target ++ queries reads value)

/-- The number of nodes that load a value. -/
def loads : Formula → Nat
  | .constant _ => 0
  | .pattern _ => 0
  | .unary operator _ operand => operand.loads + if operator = "Lea" then 1 else 0
  | .binary operator target value =>
    target.loads + value.loads + if operator = "Lea" then 1 else 0

section Counting

/-- Up to a refusal `queries` look up the first ones of `names`, and make no more than `count`
loads; without one they are these lookups and loads. -/
structure Covers (queries : List Query) (names : List String) (count : Nat) : Prop where
  upTo : ∀ made, made <+: queries → .refuse ∉ made →
    made.filterMap Query.name? <+: names ∧ made.count .load ≤ count
  whole : .refuse ∉ queries →
    queries.filterMap Query.name? = names ∧ queries.count .load = count

variable {p q : List Query} {names names' : List String} {count count' : Nat}

theorem Covers.append (h : Covers p names count) (h' : Covers q names' count') :
    Covers (p ++ q) (names ++ names') (count + count') where
  upTo made hprefix hmade := by
    obtain hp | ⟨rest, rfl⟩ := List.prefix_or_prefix_of_prefix hprefix (List.prefix_append p q)
    · obtain ⟨hnames, hcount⟩ := h.upTo made hp hmade
      exact ⟨hnames.trans (List.prefix_append _ _), Nat.le_add_right_of_le hcount⟩
    · rw [List.prefix_append_right_inj] at hprefix
      rw [List.mem_append, not_or] at hmade
      obtain ⟨hnames, hcount⟩ := h.whole hmade.1
      obtain ⟨hnames', hcount'⟩ := h'.upTo rest hprefix hmade.2
      rw [List.filterMap_append, hnames, List.prefix_append_right_inj, List.count_append, hcount]
      exact ⟨hnames', Nat.add_le_add_left hcount' count⟩
  whole hmade := by
    rw [List.mem_append, not_or] at hmade
    obtain ⟨hnames, hcount⟩ := h.whole hmade.1
    obtain ⟨hnames', hcount'⟩ := h'.whole hmade.2
    rw [List.filterMap_append, hnames, hnames', List.count_append, hcount, hcount']
    exact ⟨rfl, rfl⟩

theorem covers_nil : Covers [] [] 0 where
  upTo made hprefix _ := by
    rw [List.prefix_nil.1 hprefix]
    exact ⟨List.prefix_rfl, Nat.le_refl 0⟩
  whole _ := ⟨rfl, rfl⟩

theorem covers_singleton {query : Query}
    (h : query ≠ .refuse → [query].filterMap Query.name? = names ∧ [query].count .load = count) :
    Covers [query] names count where
  upTo made hprefix hmade := by
    obtain rfl | ⟨rest, rfl, hrest⟩ := List.prefix_cons_iff.1 hprefix
    · exact ⟨List.nil_prefix, Nat.zero_le _⟩
    · rw [List.prefix_nil.1 hrest] at hmade ⊢
      obtain ⟨hnames, hcount⟩ := h fun heq => hmade (List.mem_singleton.2 heq.symm)
      exact ⟨hnames ▸ List.prefix_rfl, Nat.le_of_eq hcount⟩
  whole hmade := h fun heq => hmade (List.mem_singleton.2 heq.symm)

theorem covers_queriesOf (reads : Bool) (operator : String) {operands : List Query}
    (h : Covers operands names count) :
    Covers (queriesOf reads operator operands) names
      (count + if operator = "Lea" then 1 else 0) := by
  unfold queriesOf
  by_cases hadd : operator = "Add"
  · rw [if_pos hadd, if_neg (hadd ▸ by decide : operator ≠ "Lea")]
    exact h
  · rw [if_neg hadd]
    split_ifs with hload hlea hlea
    · have hread : Covers [.load] [] 1 := covers_singleton fun _ => ⟨rfl, rfl⟩
      rw [← List.append_nil names]
      exact h.append hread
    · exact absurd hload.1 hlea
    · exact covers_singleton fun hne => absurd rfl hne
    · exact covers_singleton fun hne => absurd rfl hne

theorem covers_queries (reads : Bool) : ∀ formula : Formula,
    Covers (formula.queries reads) formula.references formula.loads
  | .constant _ => covers_nil
  | .pattern _ => covers_singleton fun _ => ⟨rfl, rfl⟩
  | .unary operator _ operand => covers_queriesOf reads operator (covers_queries reads operand)
  | .binary operator target value =>
    covers_queriesOf reads operator
      ((covers_queries reads target).append (covers_queries reads value))

end Counting

section Performing

variable {atlas : Atlas σ} {memory : Option Memory} {p q : List Query}

theorem operate_performs (operator : String) {target : Task σ UInt64} {given : Task σ Given}
    (htarget : Performs atlas p target) (hgiven : Performs atlas q given) :
    Performs atlas (queriesOf memory.isSome operator (p ++ q))
      (operate memory operator target given) := by
  unfold operate queriesOf
  by_cases hadd : operator = "Add"
  · rw [if_pos hadd, if_pos hadd]
    exact htarget.bind fun address =>
      hgiven.bind_quiet fun _ => (Performs.ofExcept _).bind fun _ => .pure _
  · rw [if_neg hadd, if_neg hadd]
    by_cases hlea : operator = "Lea"
    · rw [if_pos hlea]
      cases memory with
      | none =>
        rw [if_neg (by simp)]
        exact .throw _ _
      | some memory =>
        rw [if_pos ⟨hlea, rfl⟩, List.append_assoc]
        exact htarget.bind fun address =>
          hgiven.bind fun _ => (Performs.ofExcept _).bind fun width => .load memory address width
    · rw [if_neg hlea, if_neg fun h => hlea h.1]
      exact .throw _ _

/-- A formula is given as a setting with the queries of its address, if it is computed at all. -/
theorem given_performs {formula : Formula} {address : Task σ UInt64}
    (h : Performs atlas (formula.queries memory.isSome) address) :
    Performs atlas (formula.queries memory.isSome) (formula.given address) := by
  cases formula with
  | constant value => exact .pure _
  | pattern name => exact h.bind_quiet fun _ => .pure _
  | unary operator value operand => exact h.bind_quiet fun _ => .pure _
  | binary operator target value => exact h.bind_quiet fun _ => .pure _

theorem denote_performs (atlas : Atlas σ) (memory : Option Memory) : ∀ formula : Formula,
    Performs atlas (formula.queries memory.isSome) (formula.denote atlas memory)
  | .constant value => .ofExcept _
  | .pattern name => .lookup (Text.trim name)
  | .unary operator value operand => by
    have hoperand := denote_performs atlas memory operand
    rw [queries, ← List.append_nil (operand.queries _)]
    exact operate_performs operator hoperand (.pure _)
  | .binary operator target value =>
    operate_performs operator (denote_performs atlas memory target)
      (given_performs (denote_performs atlas memory value))

end Performing

/-- Over a registry of the built-in operators an evaluation makes the queries of its formula in
their order and no other ones: those up to where it fails, all of them if it gives a text. So the
names it looks up are the first ones of those that the formula refers to, each reference at most
once; it reads memory at most once for every node that loads, and never passes a refusal. -/
theorem evaluate_queries (atlas : Atlas σ) (memory : Option Memory) (formula : Formula)
    {s : Trail (Scene σ)} (h : s.state.registry.IsBuiltin) :
    let task := formula.evaluate atlas memory
    let t := task.final s
    let queries := formula.queries memory.isSome
    ∃ made, Made atlas ⟨s.state.patterns, s.log⟩ made ⟨t.state.patterns, t.log⟩
      ∧ ((∀ name u, ((atlas name).final u).log = u.log) →
          ∃ events, t.log = events ++ s.log ∧ events.reverse.map Query.ofEvent = made)
      ∧ made <+: queries ∧ .refuse ∉ made
      ∧ made.filterMap Query.name? <+: formula.references
      ∧ made.count .load ≤ formula.loads
      ∧ ∀ text, task.answer s = .ok text → made = queries
        ∧ made.filterMap Query.name? = formula.references
        ∧ made.count .load = formula.loads := by
  intro task t queries
  obtain ⟨hanswer, hend⟩ := (evaluate_follows atlas memory formula).ends h
  obtain ⟨made, hmade, hprefix, hall⟩ :=
    ((given_performs (denote_performs atlas memory formula)).map Given.write)
      ⟨s.state.patterns, s.log⟩
  rw [← hend] at hmade
  have hcovers := covers_queries memory.isSome formula
  obtain ⟨hnames, hcount⟩ := hcovers.upTo made hprefix hmade.refuse_notMem
  refine ⟨made, hmade, hmade.exists_log_eq, hprefix, hmade.refuse_notMem, hnames, hcount,
    fun text htext => ?_⟩
  obtain rfl : made = queries := hall text (hanswer.symm.trans htext)
  exact ⟨rfl, hcovers.whole hmade.refuse_notMem⟩

/-- The target is looked up and loaded before the setting is asked for. -/
theorem evaluate_queries_load :
    let memory := (⟨0x1000, [0x34, 0x12]⟩ : Buffer).memory
    let atlas : Atlas Unit := fun _ => return 0x1000
    let formula : Formula :=
      .binary "Add" (.unary "Lea" (some "word") (.pattern " Start ")) (.pattern "Step")
    let s : Trail (Scene Unit) := ⟨⟨Registry.standard, ()⟩, []⟩
    let t := (formula.evaluate atlas (some memory)).final s
    s.state.registry.IsBuiltin
      ∧ ∃ made, Made atlas ⟨(), []⟩ made ⟨t.state.patterns, t.log⟩
        ∧ made = [.lookup "Start", .load, .lookup "Step"] := by
  intro memory atlas formula s t
  have hbuiltin : s.state.registry.IsBuiltin := Registry.isBuiltin_standard
  have htext : (formula.evaluate atlas (some memory)).answer s = .ok "2234" := by decide +kernel
  obtain ⟨made, hmade, -, -, -, -, -, hall⟩ :=
    evaluate_queries atlas (some memory) formula hbuiltin
  exact ⟨hbuiltin, made, hmade, (hall "2234" htext).1.trans (by decide +kernel)⟩

end Formula

end Landmark
