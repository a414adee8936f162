import Landmark.Operator.Deferred
import Landmark.Operator.Operand

/-!
# What an operator does

An operator works on a target address and a setting, both given as text by someone else. What it
does is written down as a `Program`: a tree of the questions it asks, with the answers deciding how
it goes on. So an operator knows of its operands only what its questions are answered, and of the
target's memory only what it reads.

`Program.run` carries a program out for one operator instance. The instance's `Cells` remember the
operands that have been read; `reread` questions go past them and ask for the text itself.
-/

namespace Landmark

/-- What the second operand of an operator means. -/
inductive Setting
  | offset
  | width
deriving DecidableEq, Repr, Inhabited

/-- The values of a setting. -/
abbrev Setting.Value : Setting → Type
  | .offset => Int64
  | .width => LoadWidth

/-- Reads the text of a setting. -/
def Setting.read : (setting : Setting) → String → Except Error setting.Value
  | .offset, s => (Operand.readOffset s).mapError .malformedOperand
  | .width, s => (LoadWidth.read s).mapError .malformedOperand

/-- Reads the text of a target. -/
def readTarget (s : String) : Except Error UInt64 :=
  (Operand.readTarget s).mapError .malformedOperand

/-- The two operands of an operator. -/
inductive Slot
  | target
  | setting
deriving DecidableEq, Repr, Inhabited

/-- What an operator does, as a tree of questions; `κ` is the type of its setting. -/
inductive Program (κ : Type)
  /-- The operator gives an address. -/
  | give (address : UInt64)
  /-- The operator fails. -/
  | fail (error : Error)
  /-- The operator asks for its target. -/
  | target (next : Except Error UInt64 → Program κ)
  /-- The operator asks for its setting. -/
  | setting (next : Except Error κ → Program κ)
  /-- The operator asks for the text of an operand afresh. -/
  | reread (slot : Slot) (next : Except Error String → Program κ)
  /-- The operator copies bytes out of memory. -/
  | read (address : UInt64) (size : Nat) (next : Except Error (List UInt8) → Program κ)

/-- The operands an operator instance has read. -/
structure Cells (κ : Type) where
  target : Deferred UInt64 := .pending
  setting : Deferred κ := .pending
deriving Repr, Inhabited

namespace Cells

variable {κ σ α : Type}

/-- Runs a task on the cell of the target. -/
def onTarget (task : Task (Deferred UInt64 × σ) α) : Task (Cells κ × σ) α :=
  Task.within (fun s => (s.1.target, s.2)) (fun p s => ({ s.1 with target := p.1 }, p.2)) task

/-- Runs a task on the cell of the setting. -/
def onSetting (task : Task (Deferred κ × σ) α) : Task (Cells κ × σ) α :=
  Task.within (fun s => (s.1.setting, s.2)) (fun p s => ({ s.1 with setting := p.1 }, p.2)) task

/-- The cells of an operator instance as text: the operator's name, and the name of its setting with
how a value of it is written. -/
def text (operator settingName : String) (write : κ → String) (cells : Cells κ) : String :=
  operator ++ " \x7b target: " ++ cells.target.text (fun address => Numeral.write 10 address.toNat)
    ++ ", " ++ settingName ++ ": " ++ cells.setting.text write ++ " \x7d"

end Cells

/-- Where an operator's operands and memory come from. -/
structure Supply (σ : Type) where
  setting : Task σ String
  target : Task σ String
  memory : Option Memory := none

namespace Program

variable {κ σ : Type}

/-- Asks for the target of an operator instance. -/
def askTarget (supply : Supply σ) : Task (Cells κ × σ) UInt64 :=
  Cells.onTarget (Deferred.force readTarget supply.target)

/-- Asks for the setting of an operator instance. -/
def askSetting (read : String → Except Error κ) (supply : Supply σ) : Task (Cells κ × σ) κ :=
  Cells.onSetting (Deferred.force read supply.setting)

/-- The text of an operand. -/
def askText (supply : Supply σ) : Slot → Task (Cells κ × σ) String
  | .target => Task.beside supply.target
  | .setting => Task.beside supply.setting

/-- Copies bytes out of the supplied memory. -/
def readBytes (supply : Supply σ) (address : UInt64) (size : Nat) :
    Task (Cells κ × σ) (List UInt8) :=
  match supply.memory with
  | some memory => memory.readBytes address size
  | none => throw .missingMemory

/-- Carries a program out. -/
def run (read : String → Except Error κ) (supply : Supply σ) :
    Program κ → Task (Cells κ × σ) UInt64
  | .give address => return address
  | .fail error => throw error
  | .target next => do
    let answer ← Task.attempt (askTarget supply)
    run read supply (next answer)
  | .setting next => do
    let answer ← Task.attempt (askSetting read supply)
    run read supply (next answer)
  | .reread slot next => do
    let answer ← Task.attempt (askText supply slot)
    run read supply (next answer)
  | .read address size next => do
    let answer ← Task.attempt (readBytes supply address size)
    run read supply (next answer)

/-- Asks for the target and gives up if there is none. -/
def withTarget (next : UInt64 → Program κ) : Program κ :=
  .target fun
    | .ok address => next address
    | .error error => .fail error

/-- Asks for the setting and gives up if there is none. -/
def withSetting (next : κ → Program κ) : Program κ :=
  .setting fun
    | .ok value => next value
    | .error error => .fail error

/-- Ends with an address or a failure. -/
def ofExcept : Except Error UInt64 → Program κ
  | .ok address => .give address
  | .error error => .fail error

/-- Reads an unsigned value of so many bytes and ends with it as an address. -/
def load (address : UInt64) (size : Nat) : Program κ :=
  .read address size fun answer =>
    ofExcept (do
      let bytes ← answer
      return UInt64.ofNat (← Memory.decode address size bytes))

end Program

/-- A kind of operator: what its setting means, whether its result outlives the target's build, and
what it does, given the width of the target's pointers where there is memory at all. -/
structure Operator where
  takes : Setting
  cacheable : Bool
  program : Option Nat → Program takes.Value

namespace Operator

variable {σ : Type}

/-- The target of an operator instance. -/
def target (operator : Operator) (supply : Supply σ) :
    Task (Cells operator.takes.Value × σ) UInt64 :=
  Program.askTarget supply

/-- The setting of an operator instance. -/
def setting (operator : Operator) (supply : Supply σ) :
    Task (Cells operator.takes.Value × σ) operator.takes.Value :=
  Program.askSetting operator.takes.read supply

/-- Lets an operator instance work. -/
def execute (operator : Operator) (supply : Supply σ) :
    Task (Cells operator.takes.Value × σ) UInt64 :=
  (operator.program (supply.memory.map Memory.pointerWidth)).run operator.takes.read supply

/-- Lets a new operator instance work once. -/
def executeOnce (operator : Operator) (supply : Supply σ) : Task σ UInt64 :=
  Task.within (fun s => (({} : Cells operator.takes.Value), s)) (fun p _ => p.2)
    (operator.execute supply)

end Operator

end Landmark
