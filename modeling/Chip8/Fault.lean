import Chip8.Hex

namespace Chip8

/-!
# Faults

A fault is a cause together with the instruction word and the address at which it arose.
Causes have a code byte, zero meaning that there is no fault, so that a fault can be shown
from its bytes alone:

* `FaultKind.code`, `FaultKind.ofCode?` — the code of a cause, and back.
* `FaultCode.name` — the name of a code.
* `FaultCode.text` — name, word and address, where they mean something.
-/

/-- Why the machine refused to go on, or refused a program. -/
inductive FaultKind where
  /-- A program is larger than the memory above its start. -/
  | programTooLarge
  /-- The word is no instruction that can be carried out. -/
  | unknownInstruction
  /-- A call with all stack slots taken. -/
  | stackOverflow
  /-- A return with no stack slot taken. -/
  | stackUnderflow
  deriving Repr, DecidableEq, Inhabited

namespace FaultKind

/-- The code of a cause. -/
def code : FaultKind → Nat
  | programTooLarge => 1
  | unknownInstruction => 2
  | stackOverflow => 3
  | stackUnderflow => 4

/-- The cause with a code. -/
def ofCode? : Nat → Option FaultKind
  | 1 => some programTooLarge
  | 2 => some unknownInstruction
  | 3 => some stackOverflow
  | 4 => some stackUnderflow
  | _ => none

@[simp] theorem ofCode?_code (k : FaultKind) : ofCode? k.code = some k := by
  cases k <;> rfl

/-- The name of a cause. -/
def name : FaultKind → String
  | programTooLarge => "RomTooLarge"
  | unknownInstruction => "UnknownInstruction"
  | stackOverflow => "StackOverflow"
  | stackUnderflow => "StackUnderflow"

end FaultKind

/-- A fault: its cause, the word that was to be executed, and where that word lay. -/
structure Fault where
  /-- The cause. -/
  kind : FaultKind
  /-- The word that was to be executed. -/
  word : UInt16
  /-- The address of that word. -/
  address : UInt16
  deriving Repr, DecidableEq, Inhabited

/-! ### Codes -/

/-- The code of a cause, or zero where there is no fault. -/
abbrev FaultCode := Nat

namespace FaultCode

/-- The code that stands for the absence of a fault. -/
def noFault : FaultCode := 0

/-- The code of what may be a fault. -/
def ofFault? : Option Fault → FaultCode
  | some f => f.kind.code
  | none => noFault

/-- The name of a code; a code that no cause has is called `?`. -/
def name (code : FaultCode) : String :=
  if code = noFault then "None"
  else
    match FaultKind.ofCode? code with
    | some kind => kind.name
    | none => "?"

/-- The text of a fault given by its code.  A refused program has no word and no address
to show, nor has the absence of a fault. -/
def text (code : FaultCode) (word address : UInt16) : String :=
  if code = noFault ∨ code = FaultKind.programTooLarge.code then name code
  else name code ++ " \x7bword=" ++ hexWord word ++ ", address=" ++ hexWord address ++ "\x7d"

/-- The code of a cause is never the one that stands for no fault. -/
theorem code_ne_noFault (k : FaultKind) : k.code ≠ noFault := by
  cases k <;> decide

@[simp] theorem name_code (k : FaultKind) : name k.code = k.name := by
  cases k <;> rfl

end FaultCode

/-- The text of a fault. -/
def Fault.text (f : Fault) : String := FaultCode.text f.kind.code f.word f.address

end Chip8
