import Mathlib.Algebra.Group.Nat.Defs
import Mathlib.Tactic.Common
import Landmark.Operator.Builtin
import Landmark.Proofs.Invariance

/-!
# What the built-in operators come to

`Add` takes its target and then its offset and adds them (`Operator.execute_add`), and `Lea` takes
its target and then its width and loads what lies there (`Operator.execute_lea`), as a number of
which nothing is cut off (`LoadWidth.toNat_of_load`). An operator instance keeps each operand that
it has read, but an instance that works once is gone afterwards, so nothing of it is left to be seen
(`Operator.executeOnce_add`, `Operator.executeOnce_lea`).
-/

namespace Landmark

variable {κ σ α : Type}

theorem Task.eq_ok_of_ofExcept {result : Except Error α} {s t : Trail σ} {a : α}
    (h : Task.ofExcept result s = .ok a t) : result = .ok a := by
  cases result <;> cases h
  rfl

namespace Deferred

/-- The value of a text that is asked for. -/
def once (read : String → Except Error α) (source : Task σ String) : Task σ α := do
  Task.ofExcept (read (← source))

/-- The first access reads the text and keeps the value. -/
theorem force_pending (read : String → Except Error α) (source : Task σ String) (s : Trail σ) :
    force read source ⟨(.pending, s.state), s.log⟩
      = match once read source s with
        | .ok value t => .ok value ⟨(.ready value, t.state), t.log⟩
        | .error e t => .error e ⟨(.pending, t.state), t.log⟩ := by
  have hforce : force read source ⟨(.pending, s.state), s.log⟩
      = (Task.beside source >>= fun text => do
          let value ← Task.ofExcept (read text)
          Task.setState (.ready value, (← Task.getState).2)
          return value : Task (Deferred α × σ) α) ⟨(.pending, s.state), s.log⟩ := rfl
  rw [hforce]
  rcases htext : source s with ⟨text, t⟩ | ⟨e, t⟩
  · have hbeside : Task.beside (τ := Deferred α) source ⟨(.pending, s.state), s.log⟩
        = .ok text ⟨(.pending, t.state), t.log⟩ := by
      simp only [Task.beside, Task.within, htext]
    rw [once, Task.bind_ok htext, Task.bind_ok hbeside]
    cases read text <;> rfl
  · have hbeside : Task.beside (τ := Deferred α) source ⟨(.pending, s.state), s.log⟩
        = .error e ⟨(.pending, t.state), t.log⟩ := by
      simp only [Task.beside, Task.within, htext]
    rw [once, Task.bind_error htext, Task.bind_error hbeside]

end Deferred

namespace Program

variable (read : String → Except Error κ) (supply : Supply σ)

/-- A program that gives up when a question fails goes on with what was asked for. -/
theorem run_ask {ask : Task (Cells κ × σ) α} {next : Except Error α → Program κ}
    (hfail : ∀ e, next (.error e) = .fail e) :
    (do
        let answer ← Task.attempt ask
        run read supply (next answer))
      = ask >>= fun a => run read supply (next (.ok a)) := by
  funext s
  rcases hask : ask s with ⟨a, t⟩ | ⟨e, t⟩
  · have hanswer : Task.attempt ask s = .ok (.ok a) t := by rw [Task.attempt, hask]
    rw [Task.bind_ok hask, Task.bind_ok hanswer]
  · have hanswer : Task.attempt ask s = .ok (.error e) t := by rw [Task.attempt, hask]
    rw [Task.bind_error hask, Task.bind_ok hanswer, hfail]
    rfl

theorem run_load {memory : Memory} (h : supply.memory = some memory) (address : UInt64)
    (size : Nat) :
    run read supply (load address size)
      = memory.readUnsigned size address >>= fun value => pure (UInt64.ofNat value) := by
  refine (run_ask read supply fun _ => rfl).trans ?_
  rw [readBytes, h, Memory.readUnsigned, bind_assoc]
  refine congrArg _ (funext fun bytes => ?_)
  change run read supply
    (ofExcept (Memory.decode address size bytes >>= fun value => pure (UInt64.ofNat value))) = _
  cases Memory.decode address size bytes <;> rfl

end Program

/-- The value of `n` bytes is below the `n`th power of 256. -/
theorem Memory.littleEndian_lt : ∀ bytes : List UInt8, littleEndian bytes < 256 ^ bytes.length
  | [] => Nat.one_pos
  | byte :: bytes => by
    have hbyte := byte.toNat_lt
    have hrest := littleEndian_lt bytes
    rw [littleEndian, List.length_cons, Nat.pow_succ]
    omega

namespace LoadWidth

/-- Loads a value of a width as an address. -/
def load (memory : Memory) (address : UInt64) (width : LoadWidth) : Task σ UInt64 := do
  let size ← Task.ofExcept (width.size memory.pointerWidth address)
  return UInt64.ofNat (← memory.readUnsigned size address)

theorem keeps_load (memory : Memory) (address : UInt64) (width : LoadWidth)
    {I : Trail σ → Prop} (hevent : ∀ s event, I s → I ⟨s.state, event :: s.log⟩) :
    Task.Keeps I (width.load memory address) := by
  have hbytes (size : Nat) : Task.Keeps I (memory.readBytes address size) :=
    .bind (.record fun s => hevent s _) fun _ => .ofExcept _
  exact .bind (.ofExcept _) fun size =>
    .bind (.bind (hbytes size) fun _ => .ofExcept _) fun _ => .pure _

theorem size_le_eight {pointerWidth : Nat} {address : UInt64} {size : Nat} :
    ∀ {width : LoadWidth}, width.size pointerWidth address = .ok size → size ≤ 8
  | .byte, h => by cases h; omega
  | .word, h => by cases h; omega
  | .dword, h => by cases h; omega
  | .pointer, h => by
    unfold LoadWidth.size Memory.pointerSize at h
    split_ifs at h with hwidth
    cases h
    omega

/-- What is loaded has the value of the bytes that were copied, with zeros in front. -/
theorem toNat_of_load {memory : Memory} {address x : UInt64} {width : LoadWidth} {s t : Trail σ}
    (h : load memory address width s = .ok x t) :
    ∃ size bytes, width.size memory.pointerWidth address = .ok size
      ∧ memory.read address size = .ok bytes ∧ size ≤ bytes.length
      ∧ x.toNat = Memory.littleEndian (bytes.take size) := by
  obtain ⟨size, u, hchosen, hloaded⟩ := Task.bind_eq_ok h
  obtain ⟨value, v, hvalue, hgiven⟩ := Task.bind_eq_ok hloaded
  obtain ⟨bytes, w, hbytes, hdecoded⟩ := Task.bind_eq_ok hvalue
  obtain ⟨_, _, _, hcopied⟩ := Task.bind_eq_ok hbytes
  have hsize := Task.eq_ok_of_ofExcept hchosen
  have hdecode := Task.eq_ok_of_ofExcept hdecoded
  unfold Memory.decode at hdecode
  split_ifs at hdecode with hshort
  cases hdecode
  cases hgiven
  refine ⟨size, bytes, hsize, Task.eq_ok_of_ofExcept hcopied, Nat.le_of_not_lt hshort, ?_⟩
  have hlt := Memory.littleEndian_lt (bytes.take size)
  have hlength : (bytes.take size).length ≤ 8 := by
    have := size_le_eight hsize
    rw [List.length_take]
    omega
  rw [UInt64.toNat_ofNat']
  exact Nat.mod_eq_of_lt (Nat.lt_of_lt_of_le hlt (Nat.pow_le_pow_right (by omega) hlength))

end LoadWidth

namespace Cells

/-- Runs a task on cells that are thrown away afterwards. -/
def inside (cells : Cells κ) (task : Task (Cells κ × σ) α) : Task σ α :=
  Task.within (fun s => (cells, s)) (fun p _ => p.2) task

/-- What an instance with the given cells asks is what `m` gives, and it keeps what comes of it. -/
def Asks (cells : Cells κ) (kept : α → Cells κ) (ask : Task (Cells κ × σ) α) (m : Task σ α) :
    Prop :=
  ∀ s, ask ⟨(cells, s.state), s.log⟩ = match m s with
    | .ok a t => .ok a ⟨(kept a, t.state), t.log⟩
    | .error e t => .error e ⟨(cells, t.state), t.log⟩

theorem inside_bind {cells : Cells κ} {kept : α → Cells κ} {ask : Task (Cells κ × σ) α}
    {m : Task σ α} (hask : cells.Asks kept ask m) {β : Type} (next : α → Task (Cells κ × σ) β) :
    cells.inside (ask >>= next) = m >>= fun a => (kept a).inside (next a) := by
  funext s
  have hasked := hask s
  rcases hm : m s with ⟨a, t⟩ | ⟨e, t⟩ <;> rw [hm] at hasked
  · rw [Task.bind_ok hm, inside, Task.within, Task.bind_ok hasked]
    rfl
  · rw [Task.bind_error hm, inside, Task.within, Task.bind_error hasked]

theorem inside_load (cells : Cells κ) (memory : Memory) (address : UInt64) (width : LoadWidth) :
    cells.inside (width.load memory address) = (width.load memory address : Task σ UInt64) := by
  have hbytes (size : Nat) : cells.Asks (fun _ => cells) (memory.readBytes address size)
      (memory.readBytes address size : Task σ (List UInt8)) := by
    intro s
    unfold Memory.readBytes
    cases memory.read address size <;> rfl
  unfold LoadWidth.load
  cases width.size memory.pointerWidth address with
  | error e => rfl
  | ok size =>
    change cells.inside
        (memory.readUnsigned size address >>= fun value => pure (UInt64.ofNat value))
      = memory.readUnsigned size address >>= fun value => pure (UInt64.ofNat value)
    rw [Memory.readUnsigned, Memory.readUnsigned, bind_assoc, bind_assoc]
    refine (inside_bind (hbytes size) _).trans (congrArg _ (funext fun bytes => ?_))
    cases Memory.decode address size bytes <;> rfl

end Cells

namespace Operator

theorem asks_target (operator : Operator) (supply : Supply σ)
    (setting : Deferred operator.takes.Value) :
    Cells.Asks ⟨.pending, setting⟩ (fun address => ⟨.ready address, setting⟩)
      (operator.target supply) (Deferred.once readTarget supply.target) := by
  intro s
  have hforce := Deferred.force_pending readTarget supply.target s
  unfold Operator.target Program.askTarget Cells.onTarget Task.within
  rw [hforce]
  cases Deferred.once readTarget supply.target s <;> rfl

theorem asks_setting (operator : Operator) (supply : Supply σ) (target : Deferred UInt64) :
    Cells.Asks ⟨target, .pending⟩ (fun value => ⟨target, .ready value⟩)
      (operator.setting supply) (Deferred.once operator.takes.read supply.setting) := by
  intro s
  have hforce := Deferred.force_pending operator.takes.read supply.setting s
  unfold Operator.setting Program.askSetting Cells.onSetting Task.within
  rw [hforce]
  cases Deferred.once operator.takes.read supply.setting s <;> rfl

theorem ofInt_toInt (offset : Int64) : UInt64.ofInt offset.toInt = offset.toUInt64 := by
  have hvalue : offset.toInt = (offset.toUInt64.toNat : Int).bmod (2 ^ 64) :=
    BitVec.toInt_eq_toNat_bmod _
  have hmod : offset.toInt % 2 ^ 64 = (offset.toUInt64.toNat : Int) % 2 ^ 64 := by
    rw [hvalue]
    exact Int.bmod_emod
  have := offset.toUInt64.toNat_lt
  rw [← UInt64.toNat_inj, UInt64.ofInt, UInt64.toNat_ofNat', hmod]
  omega

/-- An offset is added modulo the size of the address space. -/
theorem ofInt_add_toInt (address : UInt64) (offset : Int64) :
    UInt64.ofInt (address.toNat + offset.toInt) = address + offset.toUInt64 := by
  have haddress : UInt64.ofInt (address.toNat : Int) = address := by
    have := address.toNat_lt
    rw [← UInt64.toNat_inj, UInt64.ofInt, UInt64.toNat_ofNat']
    omega
  rw [UInt64.ofInt_add, haddress, ofInt_toInt]

/-- `Add` takes its target, then its offset. -/
theorem execute_add (supply : Supply σ) :
    add.execute supply = (do
      let address ← add.target supply
      let offset ← add.setting supply
      return address + offset.toUInt64) := by
  refine (Program.run_ask _ supply fun _ => rfl).trans (congrArg _ (funext fun address => ?_))
  exact Program.run_ask _ supply fun _ => rfl

/-- `Lea` takes its target, then its width, and nothing without memory. -/
theorem execute_lea (supply : Supply σ) :
    lea.execute supply = match supply.memory with
      | none => throw .missingMemory
      | some memory => (do
        let address ← lea.target supply
        let width ← lea.setting supply
        width.load memory address) := by
  obtain ⟨setting, target, _ | memory⟩ := supply
  · rfl
  · refine (Program.run_ask _ _ fun _ => rfl).trans (congrArg _ (funext fun address => ?_))
    refine (Program.run_ask _ _ fun _ => rfl).trans (congrArg _ (funext fun width => ?_))
    simp only [LoadWidth.load]
    cases width.size memory.pointerWidth address with
    | error e => rfl
    | ok size => exact Program.run_load _ _ rfl _ _

theorem executeOnce_add (supply : Supply σ) :
    add.executeOnce supply = (do
      let address ← Deferred.once readTarget supply.target
      let offset ← Deferred.once (Setting.read .offset) supply.setting
      return UInt64.ofInt (address.toNat + offset.toInt)) := by
  refine (congrArg (Cells.inside {}) (execute_add supply)).trans ?_
  refine (Cells.inside_bind (asks_target _ supply .pending) _).trans ?_
  refine congrArg _ (funext fun address => ?_)
  refine (Cells.inside_bind (asks_setting add supply _) _).trans ?_
  refine congrArg _ (funext fun offset => ?_)
  exact congrArg (pure : UInt64 → Task σ UInt64) (ofInt_add_toInt address offset).symm

theorem executeOnce_lea (supply : Supply σ) :
    lea.executeOnce supply = match supply.memory with
      | none => throw .missingMemory
      | some memory => (do
        let address ← Deferred.once readTarget supply.target
        let width ← Deferred.once (Setting.read .width) supply.setting
        width.load memory address) := by
  refine (congrArg (Cells.inside {}) (execute_lea supply)).trans ?_
  cases supply.memory with
  | none => rfl
  | some memory =>
    refine (Cells.inside_bind (asks_target _ supply .pending) _).trans ?_
    refine congrArg _ (funext fun address => ?_)
    refine (Cells.inside_bind (asks_setting lea supply _) _).trans ?_
    exact congrArg _ (funext fun width => Cells.inside_load _ memory address width)

end Operator

end Landmark
