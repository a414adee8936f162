import Landmark.Formula.Evaluation

/-!
# Tasks in accord

Two tasks are in accord on a relation of their trails when, started on related trails, they give
the same answer or the same failure and leave related trails; the relation may speak of the logs as
well as of the states. An operator knows of its operands only what they answer, so an evaluation is
in accord with another one as soon as what they are made of is: the resolving of operators, the
lookups of patterns and the reads of memory (`Formula.evaluate_accord`).
-/

namespace Landmark

namespace Task

variable {σ τ α β : Type}

/-- What a task answers: its value, or how it fails. -/
def answer (task : Task σ α) (trail : Trail σ) : Except Error α :=
  match task trail with
  | .ok a _ => .ok a
  | .error e _ => .error e

/-- What a task leaves, whether it fails or not. -/
def final (task : Task σ α) (trail : Trail σ) : Trail σ :=
  match task trail with
  | .ok _ t => t
  | .error _ t => t

theorem eq_ofExcept (task : Task σ α) (trail : Trail σ) :
    task trail = ofExcept (task.answer trail) (task.final trail) := by
  unfold answer final
  cases task trail <;> rfl

theorem answer_of_eq {task : Task σ α} {s t : Trail σ} {result : Except Error α}
    (h : task s = ofExcept result t) : task.answer s = result := by
  unfold answer
  rw [h]
  cases result <;> rfl

theorem final_of_eq {task : Task σ α} {s t : Trail σ} {result : Except Error α}
    (h : task s = ofExcept result t) : task.final s = t := by
  unfold final
  rw [h]
  cases result <;> rfl

theorem bind_ok {m : Task σ α} {k : α → Task σ β} {s t : Trail σ} {a : α} (h : m s = .ok a t) :
    (m >>= k) s = k a t := by
  change EStateM.bind m k s = _
  rw [EStateM.bind, h]

theorem bind_error {m : Task σ α} {k : α → Task σ β} {s t : Trail σ} {e : Error}
    (h : m s = .error e t) : (m >>= k) s = .error e t := by
  change EStateM.bind m k s = _
  rw [EStateM.bind, h]

/-- Results with the same answer, or the same failure, and related trails. -/
inductive Paired (T : Trail σ → Trail τ → Prop) :
    EStateM.Result Error (Trail σ) α → EStateM.Result Error (Trail τ) α → Prop
  | ok (a : α) {s : Trail σ} {t : Trail τ} : T s t → Paired T (.ok a s) (.ok a t)
  | error (e : Error) {s : Trail σ} {t : Trail τ} : T s t → Paired T (.error e s) (.error e t)

/-- Tasks whose results are paired when they start on related trails. -/
def Accord (T : Trail σ → Trail τ → Prop) (m : Task σ α) (n : Task τ α) : Prop :=
  ∀ s t, T s t → Paired T (m s) (n t)

/-- Second components, with the logs, that are related beside equal first components. -/
def Aside {κ : Type} (T : Trail σ → Trail τ → Prop) (s : Trail (κ × σ)) (t : Trail (κ × τ)) :
    Prop :=
  s.state.1 = t.state.1 ∧ T ⟨s.state.2, s.log⟩ ⟨t.state.2, t.log⟩

namespace Accord

variable {T : Trail σ → Trail τ → Prop} {m : Task σ α} {n : Task τ α}

theorem of_answer_final (h : ∀ s t, T s t → m.answer s = n.answer t ∧ T (m.final s) (n.final t)) :
    Accord T m n := by
  intro s t hst
  obtain ⟨hanswer, hfinal⟩ := h s t hst
  rw [m.eq_ofExcept, n.eq_ofExcept, ← hanswer]
  cases m.answer s with
  | ok a => exact .ok a hfinal
  | error e => exact .error e hfinal

theorem answer_eq (h : Accord T m n) {s : Trail σ} {t : Trail τ} (hst : T s t) :
    m.answer s = n.answer t := by
  have hend := h s t hst
  unfold answer
  generalize m s = left, n t = right at hend ⊢
  cases hend <;> rfl

theorem final (h : Accord T m n) {s : Trail σ} {t : Trail τ} (hst : T s t) :
    T (m.final s) (n.final t) := by
  have hend := h s t hst
  unfold Task.final
  generalize m s = left, n t = right at hend ⊢
  cases hend <;> assumption

theorem pure (a : α) : Accord T (Pure.pure a) (Pure.pure a) :=
  fun _ _ h => .ok a h

theorem throw (e : Error) : Accord T (α := α) (MonadExcept.throw e) (MonadExcept.throw e) :=
  fun _ _ h => .error e h

theorem ofExcept : ∀ result : Except Error α, Accord T (Task.ofExcept result) (Task.ofExcept result)
  | .ok a => pure a
  | .error e => throw e

theorem record {event : Event}
    (h : ∀ s t, T s t → T ⟨s.state, event :: s.log⟩ ⟨t.state, event :: t.log⟩) :
    Accord T (Task.record event) (Task.record event) :=
  fun s t hst => .ok () (h s t hst)

theorem refl (m : Task σ α) : Accord Eq m m :=
  of_answer_final fun _ _ hst => hst ▸ ⟨rfl, rfl⟩

theorem bind {k : α → Task σ β} {l : α → Task τ β} (h : Accord T m n)
    (hk : ∀ a, Accord T (k a) (l a)) : Accord T (m >>= k) (n >>= l) := by
  intro s t hst
  have hend := h s t hst
  change Paired T (EStateM.bind m k s) (EStateM.bind n l t)
  unfold EStateM.bind
  generalize m s = left, n t = right at hend ⊢
  cases hend with
  | ok a hst => exact hk a _ _ hst
  | error e hst => exact .error e hst

theorem attempt (h : Accord T m n) : Accord T (Task.attempt m) (Task.attempt n) := by
  intro s t hst
  have hend := h s t hst
  unfold Task.attempt
  generalize m s = left, n t = right at hend ⊢
  cases hend with
  | ok a hst => exact .ok (Except.ok a) hst
  | error e hst => exact .ok (Except.error e) hst

/-- Tasks on parts are in accord if related trails have related parts, and stay related when
related parts are put back. -/
theorem within {σ' τ' : Type} {Q : Trail σ' → Trail τ' → Prop} {part : σ → σ'} {part' : τ → τ'}
    {put : σ' → σ → σ} {put' : τ' → τ → τ} {m : Task σ' α} {n : Task τ' α}
    (hpart : ∀ s t, T s t → Q ⟨part s.state, s.log⟩ ⟨part' t.state, t.log⟩)
    (hput : ∀ s t p q, T s t → Q p q → T ⟨put p.state s.state, p.log⟩ ⟨put' q.state t.state, q.log⟩)
    (h : Accord Q m n) : Accord T (Task.within part put m) (Task.within part' put' n) := by
  intro s t hst
  have hend := h ⟨part s.state, s.log⟩ ⟨part' t.state, t.log⟩ (hpart _ _ hst)
  unfold Task.within
  generalize m _ = left, n _ = right at hend ⊢
  cases hend with
  | ok a hq => exact .ok a (hput _ _ _ _ hst hq)
  | error e hq => exact .error e (hput _ _ _ _ hst hq)

theorem beside {κ : Type} (h : Accord T m n) :
    Accord (Aside (κ := κ) T) (Task.beside m) (Task.beside n) :=
  within (fun _ _ hst => hst.2) (fun _ _ _ _ hst hpq => ⟨hst.1, hpq⟩) h

end Accord

end Task

open Landmark.Task (Accord Aside)

variable {σ τ κ α : Type} {T : Trail σ → Trail τ → Prop}

/-- A value that is settled on one side is settled to the same on the other. -/
theorem Deferred.force_accord (read : String → Except Error α) {m : Task σ String}
    {n : Task τ String} (h : Accord T m n) :
    Accord (Aside T) (Deferred.force read m) (Deferred.force read n) := by
  rintro ⟨⟨cell, s⟩, slog⟩ ⟨⟨cell', t⟩, tlog⟩ ⟨hcell, hst⟩
  cases (hcell : cell = cell')
  cases cell with
  | ready value => exact .ok value ⟨rfl, hst⟩
  | pending =>
    have hread : Accord (Aside (κ := Deferred α) T) _ _ :=
      h.beside.bind fun text => (Accord.ofExcept (read text)).bind fun value => fun s t hst =>
        Task.Paired.ok (s := ⟨(Deferred.ready value, s.state.2), s.log⟩)
          (t := ⟨(Deferred.ready value, t.state.2), t.log⟩) value ⟨rfl, hst.2⟩
    exact hread ⟨(.pending, s), slog⟩ ⟨(.pending, t), tlog⟩ ⟨rfl, hst⟩

/-- Relations that are kept when both sides read the same bytes. -/
def Trail.Reads (T : Trail σ → Trail τ → Prop) : Prop :=
  ∀ s t address size, T s t →
    T ⟨s.state, .read address size :: s.log⟩ ⟨t.state, .read address size :: t.log⟩

namespace Supply

/-- Supplies of the same memory with operands in accord. -/
structure Accord (T : Trail σ → Trail τ → Prop) (supply : Supply σ) (supply' : Supply τ) :
    Prop where
  setting : Task.Accord T supply.setting supply'.setting
  target : Task.Accord T supply.target supply'.target
  memory : supply.memory = supply'.memory
  reads : Trail.Reads T

namespace Accord

variable {supply : Supply σ} {supply' : Supply τ}

theorem askTarget (h : Accord T supply supply') :
    Task.Accord (Aside (κ := Cells κ) T) (Program.askTarget supply)
      (Program.askTarget supply') := by
  unfold Program.askTarget Cells.onTarget
  exact .within (Q := Aside T) (fun _ _ hst => ⟨congrArg Cells.target hst.1, hst.2⟩)
    (fun _ _ _ _ hst hpq => ⟨by simp only [hst.1, hpq.1], hpq.2⟩)
    (Deferred.force_accord readTarget h.target)

theorem askSetting (read : String → Except Error κ) (h : Accord T supply supply') :
    Task.Accord (Aside (κ := Cells κ) T) (Program.askSetting read supply)
      (Program.askSetting read supply') := by
  unfold Program.askSetting Cells.onSetting
  exact .within (Q := Aside T) (fun _ _ hst => ⟨congrArg Cells.setting hst.1, hst.2⟩)
    (fun _ _ _ _ hst hpq => ⟨by simp only [hst.1, hpq.1], hpq.2⟩)
    (Deferred.force_accord read h.setting)

theorem askText (h : Accord T supply supply') : ∀ slot : Slot,
    Task.Accord (Aside (κ := Cells κ) T) (Program.askText supply slot)
      (Program.askText supply' slot)
  | .target => h.target.beside
  | .setting => h.setting.beside

theorem readBytes (h : Accord T supply supply') (address : UInt64) (size : Nat) :
    Task.Accord (Aside (κ := Cells κ) T) (Program.readBytes supply address size)
      (Program.readBytes supply' address size) := by
  unfold Program.readBytes
  rw [h.memory]
  cases supply'.memory with
  | none => exact .throw _
  | some memory =>
    exact .bind (.record fun _ _ hst => ⟨hst.1, h.reads _ _ address size hst.2⟩) fun _ =>
      .ofExcept _

end Accord

end Supply

/-- A program sees its supply through its questions only. -/
theorem Program.run_accord (read : String → Except Error κ) {supply : Supply σ}
    {supply' : Supply τ} (h : supply.Accord T supply') :
    ∀ program : Program κ, Accord (Aside T) (program.run read supply) (program.run read supply')
  | .give address => .pure address
  | .fail error => .throw error
  | .target next => .bind (.attempt h.askTarget) fun answer => run_accord read h (next answer)
  | .setting next =>
    .bind (.attempt (h.askSetting read)) fun answer => run_accord read h (next answer)
  | .reread slot next =>
    .bind (.attempt (h.askText slot)) fun answer => run_accord read h (next answer)
  | .read address size next =>
    .bind (.attempt (h.readBytes address size)) fun answer => run_accord read h (next answer)

theorem Operator.executeOnce_accord (operator : Operator) {supply : Supply σ} {supply' : Supply τ}
    (h : supply.Accord T supply') :
    Accord T (operator.executeOnce supply) (operator.executeOnce supply') := by
  refine .within (Q := Aside T) (fun _ _ hst => ⟨rfl, hst⟩) (fun _ _ _ _ _ hpq => hpq.2) ?_
  unfold execute
  rw [h.memory]
  exact Program.run_accord _ h _

namespace Formula

/-- The names of the patterns that a formula refers to, as they are looked up. -/
def references : Formula → List String
  | .constant _ => []
  | .pattern name => [Text.trim name]
  | .unary _ _ operand => operand.references
  | .binary _ target value => target.references ++ value.references

variable {T : Trail (Scene σ) → Trail (Scene τ) → Prop} {atlas : Atlas σ} {atlas' : Atlas τ}
  {names names' : List String}

/-- What evaluations are made of is in accord, as long as they look up some names only. -/
structure Attuned (T : Trail (Scene σ) → Trail (Scene τ) → Prop) (atlas : Atlas σ)
    (atlas' : Atlas τ) (names : List String) : Prop where
  resolve : ∀ identifier, Accord T (resolve identifier) (resolve identifier)
  lookup : ∀ name ∈ names, Accord T (lookup atlas name) (lookup atlas' name)
  reads : Trail.Reads T

theorem Attuned.mono (h : Attuned T atlas atlas' names') (hnames : names ⊆ names') :
    Attuned T atlas atlas' names :=
  ⟨h.resolve, fun name hname => h.lookup name (hnames hname), h.reads⟩

theorem apply_accord (h : Attuned T atlas atlas' names) (identifier : String)
    {memory : Option Memory} {target setting : Task (Scene σ) String}
    {target' setting' : Task (Scene τ) String} (htarget : Accord T target target')
    (hsetting : Accord T setting setting') :
    Accord T (apply identifier ⟨setting, target, memory⟩)
      (apply identifier ⟨setting', target', memory⟩) :=
  .bind (h.resolve identifier) fun operator =>
    .bind (operator.executeOnce_accord ⟨hsetting, htarget, rfl, h.reads⟩) fun _ => .pure _

theorem evaluate_accord (memory : Option Memory) : ∀ {formula : Formula},
    Attuned T atlas atlas' formula.references →
      Accord T (formula.evaluate atlas memory) (formula.evaluate atlas' memory)
  | .constant value, _ => .pure value
  | .pattern _, h => .bind (h.lookup _ (List.mem_singleton_self _)) fun _ => .pure _
  | .unary operator _ _, h => apply_accord h operator (evaluate_accord memory h) (.pure _)
  | .binary operator _ _, h =>
    apply_accord h operator (evaluate_accord memory (h.mono (List.subset_append_left _ _)))
      (evaluate_accord memory (h.mono (List.subset_append_right _ _)))

end Formula

end Landmark
