import Mathlib.Data.List.Basic
import Mathlib.Tactic.Common
import Landmark.Proofs.Operations

/-!
# When operands settle

The sources of an operator instance's operands are tasks: they may share a state, and answer
differently from call to call. Here every call of a source is noted with its answer, in the order of
the calls (`Supply.noting`), which nobody else can tell (`Supply.accord_noting`).

An operand settles on the first of its source's answers that can be read. Until then each access of
it calls the source once, and afterwards none does. `Add` and `Lea` access their operands one after
the other, the target first, and give up on the first that fails. So this holds after any history of
accesses and executions (`Operator.operands_settle`).
-/

namespace Landmark

variable {σ α : Type}

/-- A call of the source of an operand, with its answer. -/
structure Asked where
  slot : Slot
  answer : Except Error String
deriving DecidableEq

/-- The answers of one of the sources, in order. -/
def Asked.answers (slot : Slot) (calls : List Asked) : List (Except Error String) :=
  (calls.filter fun call => call.slot = slot).map Asked.answer

/-- The value of the first answer that can be read. -/
def firstRead (read : String → Except Error α) (answers : List (Except Error String)) : Option α :=
  answers.findSome? fun answer => (answer >>= read).toOption

theorem Asked.answers_append (slot : Slot) (calls later : List Asked) :
    answers slot (calls ++ later) = answers slot calls ++ answers slot later := by
  simp [answers]

theorem firstRead_append_singleton (read : String → Except Error α)
    (answers : List (Except Error String)) (answer : Except Error String) :
    firstRead read (answers ++ [answer])
      = (firstRead read answers).or (answer >>= read).toOption := by
  cases h : (answer >>= read).toOption <;> simp [firstRead, h]

namespace Supply

/-- A source that notes each of its calls. -/
def noted (slot : Slot) (source : Task σ String) : Task (List Asked × σ) String := do
  let answer ← Task.attempt (Task.beside source)
  let (calls, state) ← Task.getState
  Task.setState (calls ++ [⟨slot, answer⟩], state)
  Task.ofExcept answer

/-- The supply whose sources note their calls. -/
def noting (supply : Supply σ) : Supply (List Asked × σ) where
  setting := noted .setting supply.setting
  target := noted .target supply.target
  memory := supply.memory

/-- The source of an operand. -/
def source (supply : Supply σ) : Slot → Task σ String
  | .target => supply.target
  | .setting => supply.setting

theorem noted_eq (slot : Slot) (source : Task σ String) (calls : List Asked) (s : Trail σ) :
    noted slot source ⟨(calls, s.state), s.log⟩
      = Task.ofExcept (source.answer s)
        ⟨(calls ++ [⟨slot, source.answer s⟩], (source.final s).state), (source.final s).log⟩ := by
  have hbeside : Task.attempt (Task.beside source) ⟨(calls, s.state), s.log⟩
      = .ok (source.answer s) ⟨(calls, (source.final s).state), (source.final s).log⟩ := by
    unfold Task.attempt Task.beside Task.within Task.answer Task.final
    cases source s <;> rfl
  exact Task.bind_ok hbeside

/-- Noting the calls is not noticed. -/
theorem accord_noting (supply : Supply σ) :
    supply.Accord (fun s t => s = ⟨t.state.2, t.log⟩) supply.noting := by
  have hnoted (slot : Slot) (source : Task σ String) :
      Task.Accord (fun s t => s = ⟨t.state.2, t.log⟩) source (noted slot source) := by
    rintro _ ⟨⟨calls, state⟩, log⟩ rfl
    rw [source.eq_ofExcept, noted_eq slot source calls ⟨state, log⟩]
    exact Task.Accord.ofExcept _ _ _ rfl
  exact ⟨hnoted _ _, hnoted _ _, rfl, fun _ _ _ _ hst => by rw [hst]⟩

end Supply

/-- What is left of a deferred value by an attempt to read it. -/
def Deferred.ofExcept : Except Error α → Deferred α
  | .ok value => .ready value
  | .error _ => .pending

theorem Cells.onTarget_of_eq {κ : Type} {task : Task (Deferred UInt64 × σ) α}
    {s : Trail (Cells κ × σ)} {t : Trail (Deferred UInt64 × σ)} {result : Except Error α}
    (h : task ⟨(s.state.1.target, s.state.2), s.log⟩ = Task.ofExcept result t) :
    onTarget task s
      = Task.ofExcept result ⟨({ s.state.1 with target := t.state.1 }, t.state.2), t.log⟩ := by
  unfold onTarget Task.within
  rw [h]
  cases result <;> rfl

theorem Cells.onSetting_of_eq {κ : Type} {task : Task (Deferred κ × σ) α}
    {s : Trail (Cells κ × σ)} {t : Trail (Deferred κ × σ)} {result : Except Error α}
    (h : task ⟨(s.state.1.setting, s.state.2), s.log⟩ = Task.ofExcept result t) :
    onSetting task s
      = Task.ofExcept result ⟨({ s.state.1 with setting := t.state.1 }, t.state.2), t.log⟩ := by
  unfold onSetting Task.within
  rw [h]
  cases result <;> rfl

/-- The first access calls the source once, and keeps what it reads. -/
theorem Deferred.force_of_pending (read : String → Except Error α) (source : Task σ String)
    (s : Trail σ) :
    let value := source.answer s >>= read
    force read source ⟨(.pending, s.state), s.log⟩
      = Task.ofExcept value ⟨(.ofExcept value, (source.final s).state), (source.final s).log⟩ := by
  intro value
  rw [force_pending, once]
  rcases hsource : source s with ⟨text, t⟩ | ⟨e, t⟩
  · have hvalue : value = read text := by
      change source.answer s >>= read = _
      rw [Task.answer, hsource]
      rfl
    rw [Task.bind_ok hsource, Task.final_of_ok hsource, hvalue]
    cases read text <;> rfl
  · have hvalue : value = .error e := by
      change source.answer s >>= read = _
      rw [Task.answer, hsource]
      rfl
    rw [Task.bind_error hsource, Task.final_of_error hsource, hvalue]
    rfl

theorem Supply.force_noted (read : String → Except Error α) (slot : Slot) (source : Task σ String)
    (calls : List Asked) (s : Trail σ) :
    let value := source.answer s >>= read
    Deferred.force read (noted slot source) ⟨(.pending, calls, s.state), s.log⟩
      = Task.ofExcept value ⟨(.ofExcept value, calls ++ [⟨slot, source.answer s⟩],
        (source.final s).state), (source.final s).log⟩ := by
  have hnoted := noted_eq slot source calls s
  have hforce := Deferred.force_of_pending read (noted slot source) ⟨(calls, s.state), s.log⟩
  rwa [Task.answer_of_eq hnoted, Task.final_of_eq hnoted] at hforce

namespace Operator

/-- The values of an operand. -/
abbrev Value (operator : Operator) : Slot → Type
  | .target => UInt64
  | .setting => operator.takes.Value

/-- Reads the text of an operand. -/
def read (operator : Operator) : (slot : Slot) → String → Except Error (operator.Value slot)
  | .target => readTarget
  | .setting => operator.takes.read

/-- An operand of an operator instance. -/
def access (operator : Operator) (supply : Supply σ) :
    (slot : Slot) → Task (Cells operator.takes.Value × σ) (operator.Value slot)
  | .target => operator.target supply
  | .setting => operator.setting supply

/-- An operator instance whose sources note their calls. -/
abbrev Watched (operator : Operator) (σ : Type) :=
  Trail (Cells operator.takes.Value × List Asked × σ)

/-- Something asked of an operator instance. -/
inductive Request
  | access (slot : Slot)
  | execute (memory : Option Memory)

namespace Watched

variable {operator : Operator}

/-- The calls of the sources so far, in order. -/
def calls (s : operator.Watched σ) : List Asked :=
  s.state.2.1

/-- The answers of a source so far, in order. -/
def answers (s : operator.Watched σ) (slot : Slot) : List (Except Error String) :=
  Asked.answers slot s.calls

/-- The value that an operand has settled on. -/
def settled (s : operator.Watched σ) (slot : Slot) : Option (operator.Value slot) :=
  firstRead (operator.read slot) (s.answers slot)

/-- The state behind the sources. -/
def behind (s : operator.Watched σ) : Trail σ :=
  ⟨s.state.2.2, s.log⟩

/-- A new instance. -/
def new (operator : Operator) (start : Trail σ) : operator.Watched σ :=
  ⟨({}, [], start.state), start.log⟩

/-- The instance after a request. -/
def after (supply : Supply σ) (s : operator.Watched σ) : Request → operator.Watched σ
  | .access slot => (operator.access supply.noting slot).final s
  | .execute memory => (operator.execute { supply with memory }.noting).final s

theorem after_execute (supply : Supply σ) (s : operator.Watched σ) (memory : Option Memory) :
    s.after supply (.execute memory) = (operator.execute { supply with memory }.noting).final s :=
  rfl

/-- The instance after some requests. -/
def run (supply : Supply σ) (s : operator.Watched σ) (requests : List Request) :
    operator.Watched σ :=
  requests.foldl (after supply) s

/-- The cell of an operand. -/
def cell (s : operator.Watched σ) : (slot : Slot) → Deferred (operator.Value slot)
  | .target => s.state.1.target
  | .setting => s.state.1.setting

/-- The instance with another cell for an operand. -/
def put (s : operator.Watched σ) :
    (slot : Slot) → Deferred (operator.Value slot) → operator.Watched σ
  | .target, cell => { s with state := ({ s.state.1 with target := cell }, s.state.2) }
  | .setting, cell => { s with state := ({ s.state.1 with setting := cell }, s.state.2) }

/-- The instance after a call of a source. -/
def asked (supply : Supply σ) (s : operator.Watched σ) (slot : Slot) : operator.Watched σ :=
  let left := (supply.source slot).final s.behind
  ⟨(s.state.1, s.calls ++ [⟨slot, (supply.source slot).answer s.behind⟩], left.state), left.log⟩

/-- One access of an operand. If the operand has settled, its value is given and nothing happens.
Otherwise its source is called once, and the answer is read. -/
def Accessed (supply : Supply σ) (s : operator.Watched σ) (slot : Slot) : Prop :=
  let access := operator.access supply.noting slot
  match s.settled slot with
  | some value => access s = .ok value s
  | none =>
    let answer := (supply.source slot).answer s.behind
    access.answer s = (answer >>= operator.read slot)
      ∧ calls (access.final s) = s.calls ++ [⟨slot, answer⟩]
      ∧ behind (access.final s) = (supply.source slot).final s.behind

/-- An execution calls the source of the target at most once, and then the source of the setting at
most once, if the target has settled by then. -/
def TargetFirst (s t : operator.Watched σ) : Prop :=
  ∃ first second, t.calls = s.calls ++ first ++ second
    ∧ first.length ≤ 1 ∧ (∀ call ∈ first, call.slot = .target)
    ∧ second.length ≤ 1 ∧ (∀ call ∈ second, call.slot = .setting)
    ∧ (second ≠ [] → (firstRead readTarget (Asked.answers .target (s.calls ++ first))).isSome)

/-- How an operator instance treats the sources of its operands. -/
structure Settles (supply : Supply σ) (s : operator.Watched σ) : Prop where
  accessed : ∀ slot, s.Accessed supply slot
  /-- No source was called again after an answer that could be read. -/
  unread : ∀ slot, firstRead (operator.read slot) (s.answers slot).dropLast = none
  /-- The source of an operand that has settled is never called again. -/
  kept : ∀ slot value, s.settled slot = some value →
    ∀ later, (s.run supply later).answers slot = s.answers slot
      ∧ operator.access supply.noting slot (s.run supply later) = .ok value (s.run supply later)
  targetFirst : ∀ memory, s.TargetFirst (s.after supply (.execute memory))

/-- The cells hold what the operands have settled on, and no source has been called again after an
answer that could be read. -/
def Tidy (s : operator.Watched σ) : Prop :=
  ∀ slot, (s.cell slot).value? = s.settled slot
    ∧ firstRead (operator.read slot) (s.answers slot).dropLast = none

@[simp] theorem answers_put (s : operator.Watched σ) (slot : Slot)
    (cell : Deferred (operator.Value slot)) (other : Slot) :
    (s.put slot cell).answers other = s.answers other := by
  cases slot <;> rfl

@[simp] theorem cell_put_self (s : operator.Watched σ) (slot : Slot)
    (cell : Deferred (operator.Value slot)) : (s.put slot cell).cell slot = cell := by
  cases slot <;> rfl

theorem cell_put_of_ne (s : operator.Watched σ) {slot other : Slot} (h : other ≠ slot)
    (cell : Deferred (operator.Value slot)) : (s.put slot cell).cell other = s.cell other := by
  cases slot <;> cases other <;> first | rfl | exact absurd rfl h

theorem answers_asked_self (supply : Supply σ) (s : operator.Watched σ) (slot : Slot) :
    (s.asked supply slot).answers slot
      = s.answers slot ++ [(supply.source slot).answer s.behind] := by
  refine (Asked.answers_append slot s.calls _).trans ?_
  simp [Asked.answers, answers]

theorem answers_asked_of_ne (supply : Supply σ) (s : operator.Watched σ) {slot other : Slot}
    (h : other ≠ slot) : (s.asked supply slot).answers other = s.answers other := by
  refine (Asked.answers_append other s.calls _).trans ?_
  simp [Asked.answers, answers, h.symm]

@[simp] theorem cell_asked (supply : Supply σ) (s : operator.Watched σ) (slot other : Slot) :
    (s.asked supply slot).cell other = s.cell other := by
  cases other <;> rfl

theorem tidy_new (operator : Operator) (start : Trail σ) : (new operator start).Tidy :=
  fun slot => by cases slot <;> exact ⟨rfl, rfl⟩

end Watched

open Watched

variable {operator : Operator}

theorem access_of_ready (supply : Supply (List Asked × σ)) :
    ∀ {slot : Slot} {s : operator.Watched σ} {value : operator.Value slot},
      s.cell slot = .ready value → operator.access supply slot s = .ok value s
  | .target, s, value, h => by
    obtain ⟨⟨⟨target, setting⟩, calls, state⟩, log⟩ := s
    cases (h : target = .ready value)
    rfl
  | .setting, s, value, h => by
    obtain ⟨⟨⟨target, setting⟩, calls, state⟩, log⟩ := s
    cases (h : setting = .ready value)
    rfl

/-- An access of an operand that has not settled calls its source once. -/
theorem access_of_pending (supply : Supply σ) {slot : Slot} {s : operator.Watched σ}
    (h : s.cell slot = .pending) :
    let value := (supply.source slot).answer s.behind >>= operator.read slot
    operator.access supply.noting slot s
      = Task.ofExcept value ((s.asked supply slot).put slot (.ofExcept value)) := by
  have hforce := Supply.force_noted (operator.read slot) slot (supply.source slot) s.calls s.behind
  rw [← h] at hforce
  cases slot with
  | target => exact Cells.onTarget_of_eq (s := s) hforce
  | setting => exact Cells.onSetting_of_eq (s := s) hforce

/-- What an access does: nothing, or one call of the source. -/
theorem access_cases (supply : Supply σ) {s : operator.Watched σ} (h : s.Tidy) (slot : Slot) :
    (∃ value, s.settled slot = some value ∧ operator.access supply.noting slot s = .ok value s)
      ∨ s.settled slot = none
        ∧ ∃ value, (supply.source slot).answer s.behind >>= operator.read slot = value
          ∧ operator.access supply.noting slot s
            = Task.ofExcept value ((s.asked supply slot).put slot (.ofExcept value)) := by
  have hcell := (h slot).1
  rcases hs : s.cell slot with value | _
  · exact .inl ⟨value, by rw [← hcell, hs]; rfl, access_of_ready _ hs⟩
  · exact .inr ⟨by rw [← hcell, hs]; rfl, _, rfl, access_of_pending supply hs⟩

/-- An access keeps a fact that a call of the source of an operand that has not settled keeps. -/
theorem final_access_induction {P : operator.Watched σ → Prop} (supply : Supply σ)
    {s : operator.Watched σ} (h : s.Tidy) (slot : Slot) (hs : P s)
    (hasked : s.settled slot = none → ∀ value,
      (supply.source slot).answer s.behind >>= operator.read slot = value →
        P ((s.asked supply slot).put slot (.ofExcept value))) :
    P ((operator.access supply.noting slot).final s) := by
  obtain ⟨value, -, haccess⟩ | ⟨hnone, value, hvalue, haccess⟩ := access_cases supply h slot
  · rwa [Task.final_of_ok haccess]
  · rw [Task.final_of_eq haccess]
    exact hasked hnone value hvalue

theorem keeps_tidy (supply : Supply σ) (slot : Slot) :
    Task.Keeps Tidy (operator.access supply.noting slot) := by
  intro s h
  refine final_access_induction supply h slot h fun hnone value hvalue other => ?_
  by_cases hother : other = slot
  · subst hother
    rw [cell_put_self, settled, answers_put, answers_asked_self, List.dropLast_concat,
      firstRead_append_singleton, show firstRead _ _ = none from hnone, hvalue]
    exact ⟨by cases value <;> rfl, rfl⟩
  · rw [cell_put_of_ne _ hother, cell_asked, settled, answers_put, answers_asked_of_ne _ _ hother]
    exact h other

theorem accessed_of_tidy (supply : Supply σ) {s : operator.Watched σ} (h : s.Tidy) (slot : Slot) :
    s.Accessed supply slot := by
  unfold Accessed
  obtain ⟨value, hsome, haccess⟩ | ⟨hnone, value, hvalue, haccess⟩ := access_cases supply h slot
  · rw [hsome]
    exact haccess
  · rw [hnone]
    dsimp only
    rw [Task.answer_of_eq haccess, Task.final_of_eq haccess]
    exact ⟨hvalue.symm, by cases slot <;> rfl, by cases slot <;> rfl⟩

theorem calls_access (supply : Supply σ) {s : operator.Watched σ} (h : s.Tidy) (slot : Slot) :
    ∃ made, calls ((operator.access supply.noting slot).final s) = s.calls ++ made
      ∧ made.length ≤ 1 ∧ ∀ call ∈ made, call.slot = slot := by
  refine final_access_induction (P := fun t => ∃ made, t.calls = s.calls ++ made
    ∧ made.length ≤ 1 ∧ ∀ call ∈ made, call.slot = slot) supply h slot ?_ fun _ value _ => ?_
  · exact ⟨[], (List.append_nil _).symm, by simp, nofun⟩
  · exact ⟨[⟨slot, (supply.source slot).answer s.behind⟩], by cases slot <;> rfl, by simp,
      fun _ hcall => by rw [List.mem_singleton.1 hcall]⟩

theorem settled_of_access (supply : Supply σ) {s t : operator.Watched σ} (h : s.Tidy) {slot : Slot}
    {value : operator.Value slot} (haccess : operator.access supply.noting slot s = .ok value t) :
    t.settled slot = some value := by
  have ht := keeps_tidy supply slot s h
  rw [Task.final_of_ok haccess] at ht
  rw [← (ht slot).1]
  obtain ⟨kept, hkept, hs⟩ | ⟨-, kept, -, hs⟩ := access_cases supply h slot
  · cases hs.symm.trans haccess
    rw [(h slot).1, hkept]
  · rcases kept with e | kept
    · cases hs.symm.trans haccess
    · cases hs.symm.trans haccess
      rw [cell_put_self]
      rfl

theorem targetFirst_refl (s : operator.Watched σ) : s.TargetFirst s :=
  ⟨[], [], by simp, by simp, nofun, by simp, nofun, nofun⟩

/-- The target's source is called first, and the setting's only when the target has settled. -/
theorem targetFirst_bind (supply : Supply σ) {s : operator.Watched σ} (h : s.Tidy)
    {finish : UInt64 → operator.takes.Value →
      Task (Cells operator.takes.Value × List Asked × σ) UInt64}
    (hfinish : ∀ address value made, Task.Keeps (calls · = made) (finish address value)) :
    s.TargetFirst ((do
      let address ← operator.access supply.noting .target
      let value ← operator.access supply.noting .setting
      finish address value).final s) := by
  obtain ⟨first, hfirst, hlength, hslot⟩ := calls_access supply h .target
  refine Task.final_bind_induction (P := s.TargetFirst) (fun e t ht => ?_) fun address t ht => ?_
  · rw [Task.final_of_error ht] at hfirst
    exact ⟨first, [], by rw [hfirst, List.append_nil], hlength, hslot, by simp, nofun, nofun⟩
  · have htidy := keeps_tidy supply .target s h
    rw [Task.final_of_ok ht] at hfirst htidy
    have hsettled : (firstRead readTarget (Asked.answers .target (s.calls ++ first))).isSome := by
      rw [← hfirst]
      exact Option.isSome_iff_exists.2 ⟨address, settled_of_access supply h ht⟩
    obtain ⟨second, hsecond, hlength', hslot'⟩ := calls_access supply htidy .setting
    have hcalls : calls ((operator.access supply.noting .setting >>= finish address).final t)
        = calls t ++ second := by
      refine Task.final_bind_induction (P := (calls · = calls t ++ second))
        (fun e u hu => ?_) fun value u hu => ?_
      · rwa [Task.final_of_error hu] at hsecond
      · rw [Task.final_of_ok hu] at hsecond
        exact hfinish address value _ u hsecond
    exact ⟨first, second, by rw [← hfirst]; exact hcalls, hlength, hslot, hlength', hslot',
      fun _ => hsettled⟩

/-- An execution keeps what the accesses of the operands keep, if events do not matter to it. -/
theorem keeps_execute (hbuiltin : operator ∈ [add, lea])
    {I : Trail (Cells operator.takes.Value × σ) → Prop} {supply : Supply σ}
    (hI : ∀ slot, Task.Keeps I (operator.access supply slot))
    (hevent : ∀ s event, I s → I ⟨s.state, event :: s.log⟩) :
    Task.Keeps I (operator.execute supply) := by
  simp only [List.mem_cons, List.not_mem_nil, or_false] at hbuiltin
  obtain rfl | rfl := hbuiltin
  · rw [execute_add]
    exact .bind (hI .target) fun _ => .bind (hI .setting) fun _ => .pure _
  · rw [execute_lea]
    cases supply.memory with
    | none => exact .throw _
    | some memory =>
      exact .bind (hI .target) fun address => .bind (hI .setting) fun width =>
        width.keeps_load memory address hevent

/-- A run keeps what the accesses of the operands keep. -/
theorem run_induction (hbuiltin : operator ∈ [add, lea]) {I : operator.Watched σ → Prop}
    {supply : Supply σ} (hI : ∀ slot, Task.Keeps I (operator.access supply.noting slot))
    (hevent : ∀ s event, I s → I ⟨s.state, event :: s.log⟩) :
    ∀ (requests : List Request) {s : operator.Watched σ}, I s → I (s.run supply requests)
  | [], _, hs => hs
  | .access slot :: requests, s, hs =>
    run_induction hbuiltin hI hevent requests (hI slot s hs)
  | .execute memory :: requests, s, hs => by
    have hexecute : Task.Keeps I (operator.execute { supply with memory }.noting) :=
      keeps_execute hbuiltin (fun slot => by cases slot <;> [exact hI .target; exact hI .setting])
        hevent
    exact run_induction hbuiltin hI hevent requests (hexecute s hs)

theorem tidy_run (hbuiltin : operator ∈ [add, lea]) (supply : Supply σ) (requests : List Request)
    {s : operator.Watched σ} (h : s.Tidy) : (s.run supply requests).Tidy :=
  run_induction hbuiltin (keeps_tidy supply) (fun _ _ h => h) requests h

/-- The source of an operand that has settled is never called again. -/
theorem answers_run (hbuiltin : operator ∈ [add, lea]) (supply : Supply σ) {s : operator.Watched σ}
    (h : s.Tidy) {slot : Slot} {value : operator.Value slot} (hvalue : s.settled slot = some value)
    (later : List Request) : (s.run supply later).answers slot = s.answers slot := by
  let I (t : operator.Watched σ) : Prop := t.Tidy ∧ t.answers slot = s.answers slot
  have hI (other : Slot) : Task.Keeps I (operator.access supply.noting other) := by
    rintro t ⟨ht, hanswers⟩
    refine ⟨keeps_tidy supply other t ht, ?_⟩
    refine final_access_induction (P := fun t => t.answers slot = s.answers slot) supply ht other
      hanswers fun hnone read _ => ?_
    have hne : slot ≠ other := by
      rintro rfl
      rw [settled, hanswers] at hnone
      exact absurd (hnone.symm.trans hvalue) nofun
    rw [answers_put, answers_asked_of_ne _ _ hne, hanswers]
  exact (run_induction hbuiltin hI (fun _ _ h => h) later ⟨h, rfl⟩ : I _).2

theorem targetFirst_execute (hbuiltin : operator ∈ [add, lea]) (supply : Supply σ)
    {s : operator.Watched σ} (h : s.Tidy) (memory : Option Memory) :
    s.TargetFirst (s.after supply (.execute memory)) := by
  simp only [List.mem_cons, List.not_mem_nil, or_false] at hbuiltin
  obtain rfl | rfl := hbuiltin
  · rw [after_execute, execute_add]
    exact targetFirst_bind supply h fun _ _ _ => .pure _
  · rw [after_execute, execute_lea]
    cases memory with
    | none => exact targetFirst_refl s
    | some memory =>
      exact targetFirst_bind supply h fun address width _ =>
        width.keeps_load memory address fun _ _ h => h

theorem settles_of_tidy (hbuiltin : operator ∈ [add, lea]) (supply : Supply σ)
    {s : operator.Watched σ} (h : s.Tidy) : s.Settles supply where
  accessed := accessed_of_tidy supply h
  unread slot := (h slot).2
  kept slot value hvalue later := by
    have hanswers := answers_run hbuiltin supply h hvalue later
    refine ⟨hanswers, ?_⟩
    have haccess := accessed_of_tidy supply (tidy_run hbuiltin supply later h) slot
    unfold Accessed at haccess
    rw [settled, hanswers, show firstRead _ _ = some value from hvalue] at haccess
    exact haccess
  targetFirst := targetFirst_execute hbuiltin supply h

/-- A new instance of `Add` or `Lea` has called no source. After any requests, whatever the sources
answered and whatever memory it was given, an access of an operand gives the value that it has
settled on and calls nothing, or calls the source once and reads the answer. An execution comes to
an access of the target and then one of the setting, and `Lea` fails before that without memory. -/
theorem operands_settle (supply : Supply σ) (start : Trail σ) :
    (∀ operator ∈ [add, lea], (new operator start).calls = []
      ∧ ∀ requests, ((new operator start).run supply requests).Settles supply)
    ∧ (∀ memory, add.execute { supply with memory }.noting = (do
      let address ← add.access supply.noting .target
      let offset ← add.access supply.noting .setting
      return address + offset.toUInt64))
    ∧ lea.execute { supply with memory := none }.noting = throw .missingMemory
    ∧ (∀ memory, lea.execute { supply with memory := some memory }.noting = (do
      let address ← lea.access supply.noting .target
      let width ← lea.access supply.noting .setting
      width.load memory address)) := by
  refine ⟨fun operator hbuiltin => ⟨rfl, fun requests => ?_⟩, fun _ => execute_add _, execute_lea _,
    fun _ => execute_lea _⟩
  have htidy := tidy_run hbuiltin supply requests (tidy_new operator start)
  exact settles_of_tidy hbuiltin supply htidy

/-- Gives the first of the answers that are left. -/
def nextAnswer : Task (List (Except Error String)) String := do
  match ← Task.getState with
  | [] => throw .missingMemory
  | answer :: left =>
    Task.setState left
    Task.ofExcept answer

/-- Two sources that share their answers: the target fails, cannot be read, and then settles on
`10`; the execution that finds it goes on to the offset, and nobody sees the `20`. -/
theorem operands_settle_shared :
    let supply : Supply (List (Except Error String)) := ⟨nextAnswer, nextAnswer, none⟩
    let start := ⟨[.error .missingMemory, .ok "zz", .ok "10", .ok "-4", .ok "20"], []⟩
    let s := (new add start).run supply
      [.execute none, .access .target, .execute none, .access .target]
    s.calls = [⟨.target, .error .missingMemory⟩, ⟨.target, .ok "zz"⟩, ⟨.target, .ok "10"⟩,
        ⟨.setting, .ok "-4"⟩]
      ∧ ∀ later,
        add.access supply.noting .target (s.run supply later) = .ok 0x10 (s.run supply later) := by
  intro supply start s
  have hsettles := ((operands_settle supply start).1 add (by simp)).2
    [.execute none, .access .target, .execute none, .access .target]
  have hsettled : s.settled .target = some 0x10 := by decide +kernel
  exact ⟨by decide +kernel, fun later => (hsettles.kept .target 0x10 hsettled later).2⟩

end Operator

end Landmark
