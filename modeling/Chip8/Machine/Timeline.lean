import Chip8.Instruction.Form
import Chip8.Machine.Bank
import Chip8.Machine.Activity

namespace Chip8

/-!
# The timeline

The timeline holds the most recent executed instructions, each with the memory traffic it
caused.  It is a queue: new entries come in at one end, and old ones leave at the other
when there are more than a limit allows.

* `Timeline.toList` — the entries, oldest first.
* `Timeline.toList_record` — recording keeps the newest entries, as many as the limit.
-/

/-- Whether a byte went out of memory or into it. -/
inductive Direction where
  | read | write
  deriving Repr, DecidableEq, Inhabited

/-- How a direction is shown. -/
def Direction.label : Direction → String
  | read => "RD"
  | write => "WR"

/-- What a byte was moved for. -/
inductive Purpose where
  | opcodeHigh | opcodeLow | spriteRow
  | hundreds | tens | ones
  | storeRegister | loadRegister
  deriving Repr, DecidableEq, Inhabited

/-- How a purpose is shown. -/
def Purpose.label : Purpose → String
  | opcodeHigh => "opcode hi"
  | opcodeLow => "opcode lo"
  | spriteRow => "sprite row"
  | hundreds => "bcd hundreds"
  | tens => "bcd tens"
  | ones => "bcd ones"
  | storeRegister => "store V"
  | loadRegister => "load V"

/-- A byte moved between memory and the machine. -/
structure Transfer where
  /-- The number of the instruction that moved it. -/
  cycle : Nat
  /-- Whether memory was read or written. -/
  direction : Direction
  /-- The cell. -/
  address : Address
  /-- The byte. -/
  data : UInt8
  /-- What it was moved for. -/
  purpose : Purpose
  deriving DecidableEq, Inhabited

/-- An executed instruction: where it lay, and the machine just after it. -/
structure TraceEntry where
  /-- The number of the instruction. -/
  cycle : Nat
  /-- The program counter when it was read. -/
  pc : UInt16
  /-- Its word. -/
  word : UInt16
  /-- Its form. -/
  form : Form
  /-- The index register after it. -/
  index : UInt16
  /-- How many stack slots were taken after it. -/
  depth : Nat
  /-- The registers after it. -/
  registers : Registers
  /-- The run state after it. -/
  phase : Phase
  /-- The memory traffic it caused, in order. -/
  traffic : List Transfer
  deriving DecidableEq, Inhabited

/-- A queue of executed instructions, kept as its older part in order and its newer part in
reverse. -/
structure Timeline where
  /-- The older entries, oldest first. -/
  older : List TraceEntry
  /-- The newer entries, newest first. -/
  newer : List TraceEntry
  /-- How many entries there are. -/
  size : Nat
  /-- The size counts both parts. -/
  size_eq : size = older.length + newer.length := by simp

namespace Timeline

/-- The timeline of a machine that has executed nothing. -/
def empty : Timeline where
  older := []
  newer := []
  size := 0

instance : Inhabited Timeline := ⟨empty⟩

/-- The entries, oldest first. -/
def toList (t : Timeline) : List TraceEntry := t.older ++ t.newer.reverse

/-- Whether there are no entries. -/
def isEmpty (t : Timeline) : Bool := t.size == 0

/-- Put an entry at the new end. -/
def push (t : Timeline) (entry : TraceEntry) : Timeline where
  older := t.older
  newer := entry :: t.newer
  size := t.size + 1
  size_eq := by simp [t.size_eq, Nat.add_assoc]

/-- Remove the oldest entry, if there is one. -/
def dropOldest (t : Timeline) : Timeline :=
  match h : t.older with
  | _ :: rest =>
    { older := rest, newer := t.newer, size := t.size - 1,
      size_eq := by simp [t.size_eq, h] }
  | [] =>
    { older := t.newer.reverse.tail, newer := [], size := t.size - 1,
      size_eq := by simp [t.size_eq, h] }

/-- Remove a number of entries, the oldest first. -/
def drop : Nat → Timeline → Timeline
  | 0, t => t
  | count + 1, t => drop count t.dropOldest

/-- Put an entry at the new end and remove what is then too old: no more entries than the
limit are left. -/
def record (t : Timeline) (limit : Nat) (entry : TraceEntry) : Timeline :=
  drop (t.size + 1 - limit) (t.push entry)

/-- The newest entries, at most a number of them, oldest first. -/
def last (t : Timeline) (count : Nat) : List TraceEntry := t.toList.drop (t.size - count)

@[simp] theorem toList_empty : empty.toList = [] := rfl

@[simp] theorem length_toList (t : Timeline) : t.toList.length = t.size := by
  simp [toList, t.size_eq]

@[simp] theorem toList_push (t : Timeline) (entry : TraceEntry) :
    (t.push entry).toList = t.toList ++ [entry] := by
  simp [toList, push]

@[simp] theorem toList_dropOldest (t : Timeline) : t.dropOldest.toList = t.toList.tail := by
  unfold dropOldest toList
  split <;> next h => simp [h]

@[simp] theorem toList_drop (count : Nat) (t : Timeline) :
    (drop count t).toList = t.toList.drop count := by
  induction count generalizing t with
  | zero => rfl
  | succ count ih => simp [drop, ih, List.drop_tail]

/-- Recording keeps the newest entries, as many as the limit. -/
theorem toList_record (t : Timeline) (limit : Nat) (entry : TraceEntry) :
    (t.record limit entry).toList =
      (t.toList ++ [entry]).drop (t.toList.length + 1 - limit) := by
  simp [record]

end Timeline

end Chip8
