import Chip8.Fault
import Chip8.Machine.Bank
import Chip8.Machine.CallStack
import Chip8.Machine.Dialect
import Chip8.Machine.Display
import Chip8.Machine.RandomSource
import Chip8.Machine.Activity
import Chip8.Machine.Timeline

namespace Chip8

/-!
# The machine

The state of the machine, how it is powered on, and how a program gets into its memory.

* `Machine.reset` — every field put back, except how the machine was set up;
  `Machine.reset_eq_powerOn` says that this is a machine just powered on.
* `Machine.load` — a reset and then the program in memory; a program that is too large
  changes nothing.
* `Outcome` — what an operation leaves behind: a machine, perhaps a fault, and notices.
-/

/-- The machine: what programs see, how it was set up, and what is counted and recorded. -/
structure Machine where
  /-- The registers `V0` to `VF`. -/
  registers : Registers
  /-- The index register. -/
  index : UInt16
  /-- The program counter. -/
  pc : UInt16
  /-- The return addresses. -/
  calls : CallStack
  /-- The delay timer. -/
  delay : UInt8
  /-- The sound timer. -/
  sound : UInt8
  /-- The memory. -/
  memory : Memory
  /-- The display. -/
  display : Display
  /-- The keys. -/
  keys : Keypad
  /-- How disputed instructions are read. -/
  dialect : Dialect
  /-- Whether it runs, waits for a key or has halted. -/
  activity : Activity
  /-- Instructions executed. -/
  cycles : Nat
  /-- Frames completed. -/
  frames : Nat
  /-- The most recent instructions. -/
  timeline : Timeline
  /-- How many instructions the timeline keeps. -/
  traceLimit : Nat
  /-- Where random bytes come from. -/
  random : RandomSource

/-! ### Notices and outcomes -/

/-- Something that the machine announces. -/
inductive Notice where
  /-- A program of some bytes was loaded. -/
  | loaded (size : Nat)
  /-- A program of some bytes was refused. -/
  | oversized (size : Nat)
  /-- A fault stopped the machine. -/
  | halted (fault : Fault)
  deriving DecidableEq

/-- What an operation leaves behind. -/
structure Outcome where
  /-- The machine afterwards. -/
  machine : Machine
  /-- The fault that the operation reports, if any. -/
  fault? : Option Fault := none
  /-- What was announced meanwhile. -/
  notices : List Notice := []

/-! ### The layout of the memory -/

/-- The start of the glyphs in memory. -/
def fontBase : Nat := 0x050

/-- How many bytes a glyph has. -/
def glyphSize : Nat := 5

/-- The start of programs in memory. -/
def programStart : Nat := 0x200

/-- The size of the largest program that fits. -/
def programCapacity : Nat := 4096 - programStart

/-- The glyphs of the sixteen digits. -/
def font : List UInt8 :=
  [0xF0, 0x90, 0x90, 0x90, 0xF0,
   0x20, 0x60, 0x20, 0x20, 0x70,
   0xF0, 0x10, 0xF0, 0x80, 0xF0,
   0xF0, 0x10, 0xF0, 0x10, 0xF0,
   0x90, 0x90, 0xF0, 0x10, 0x10,
   0xF0, 0x80, 0xF0, 0x10, 0xF0,
   0xF0, 0x80, 0xF0, 0x90, 0xF0,
   0xF0, 0x10, 0x20, 0x40, 0x40,
   0xF0, 0x90, 0xF0, 0x90, 0xF0,
   0xF0, 0x90, 0xF0, 0x10, 0xF0,
   0xF0, 0x90, 0xF0, 0x90, 0x90,
   0xE0, 0x90, 0xE0, 0x90, 0xE0,
   0xF0, 0x80, 0x80, 0x80, 0xF0,
   0xE0, 0x90, 0x90, 0x90, 0xE0,
   0xF0, 0x80, 0xF0, 0x80, 0xF0,
   0xF0, 0x80, 0xF0, 0x80, 0x80]

/-- A memory that holds the glyphs and nothing else. -/
def Memory.initial : Memory := Bank.blank.writeFrom fontBase font

/-- The text of a notice. -/
def Notice.text : Notice → String
  | loaded size => "[chip8] loaded " ++ toString size ++ " bytes at 0x200"
  | oversized size =>
    "[chip8] ROM of " ++ toString size ++ " bytes exceeds the "
      ++ toString programCapacity ++ " byte program area"
  | halted fault => "[chip8] halted: " ++ fault.text

namespace Machine

/-- A machine just powered on, set up in a given way. -/
def powerOn (dialect : Dialect) (traceLimit : Nat) (random : RandomSource) : Machine where
  registers := .blank
  index := 0
  pc := UInt16.ofNat programStart
  calls := .empty
  delay := 0
  sound := 0
  memory := Memory.initial
  display := .blank
  keys := .released
  dialect := dialect
  activity := .running
  cycles := 0
  frames := 0
  timeline := .empty
  traceLimit := traceLimit
  random := random

/-- How many instructions the timeline keeps unless another number is asked for. -/
def defaultTraceLimit : Nat := 4096

instance : Inhabited Machine := ⟨powerOn {} defaultTraceLimit default⟩

/-- The machine with everything that programs see and everything that is counted and recorded put
back, field by field; how it was set up stays. -/
def reset (m : Machine) : Machine :=
  { m with
    memory := Memory.initial
    registers := .blank
    index := 0
    pc := UInt16.ofNat programStart
    calls := .empty
    delay := 0
    sound := 0
    display := .blank
    keys := .released
    activity := .running
    cycles := 0
    frames := 0
    timeline := .empty }

/-- No field is forgotten: a machine that has been reset is one just powered on. -/
theorem reset_eq_powerOn (m : Machine) : m.reset = powerOn m.dialect m.traceLimit m.random := rfl

/-- The fault with which a program that is too large is refused. -/
def oversizedFault : Fault := ⟨.programTooLarge, 0, UInt16.ofNat programStart⟩

/-- Reset the machine and put a program into its memory.  A program that does not fit is
refused, and then the machine is left as it was. -/
def load (m : Machine) (program : List UInt8) : Outcome :=
  if program.length ≤ programCapacity then
    { machine := { m.reset with memory := Memory.initial.writeFrom programStart program }
      notices := [.loaded program.length] }
  else
    { machine := m, fault? := some oversizedFault, notices := [.oversized program.length] }

/-- Press or release a key; a number that no key has does nothing. -/
def withKey (m : Machine) (number : Nat) (down : Bool) : Machine :=
  { m with keys := m.keys.set number down }

/-- Put a byte into a memory cell. -/
def poke (m : Machine) (address : Address) (value : UInt8) : Machine :=
  { m with memory := m.memory.write address value }

/-- The word at an address. -/
def fetch (m : Machine) (address : UInt16) : UInt16 := m.memory.wordAt address

/-- The fault that stopped the machine, if one did. -/
def fault? (m : Machine) : Option Fault := m.activity.fault?

/-- Whether a fault has stopped the machine. -/
def isHalted (m : Machine) : Bool := m.activity.phase == .halted

/-- Whether the machine waits for a key. -/
def isWaiting (m : Machine) : Bool := m.activity.phase == .awaitingKey

/-- Whether the tone sounds. -/
def isBeeping (m : Machine) : Bool := m.sound != 0

end Machine

end Chip8
