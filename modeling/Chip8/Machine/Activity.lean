import Chip8.Word
import Chip8.Fault

namespace Chip8

/-!
# Keys and run states

A machine runs, waits for a key, or has halted.  While it waits it remembers which register
is to receive the key and which keys were down when it last looked; once halted it
remembers why.

* `Keypad.firstPressed?` — the lowest key that is down and was not down before.
* `Activity` — the three states with what each remembers.
* `Phase` — which of the three it is; `Phase.label` is how that is shown.
-/

/-- Which of the sixteen keys are down. -/
@[ext] structure Keypad where
  /-- The keys in order. -/
  keys : Vector Bool 16
  deriving DecidableEq

namespace Keypad

/-- The keypad with no key down. -/
def released : Keypad := ⟨Vector.replicate 16 false⟩

instance : Inhabited Keypad := ⟨released⟩

/-- Whether a key is down. -/
def isDown (k : Keypad) (key : Key) : Bool := k.keys[key]

/-- Press or release a key; a number that no key has does nothing. -/
def set (k : Keypad) (number : Nat) (down : Bool) : Keypad :=
  if h : number < 16 then ⟨k.keys.set number down⟩ else k

/-- The lowest key that is down now and was not down before. -/
def firstPressed? (now before : Keypad) : Option Key :=
  (List.finRange 16).find? fun key => now.isDown key && !before.isDown key

/-- The keypad as a number whose bits are the keys, key `0` the lowest. -/
def mask (k : Keypad) : Nat :=
  k.keys.toList.foldr (fun down rest => (if down then 1 else 0) + 2 * rest) 0

@[simp] theorem isDown_released (key : Key) : released.isDown key = false := by
  simp [released, isDown]

theorem isDown_set (k : Keypad) (number : Nat) (down : Bool) (key : Key) :
    (k.set number down).isDown key = if number = key.val then down else k.isDown key := by
  by_cases h : number < 16
  · simp [set, h, isDown, Vector.getElem_set]
  · have : number ≠ key.val := by omega
    simp [set, h, this]

end Keypad

/-- Which of the three run states a machine is in. -/
inductive Phase where
  | running | awaitingKey | halted
  deriving Repr, DecidableEq, Inhabited

/-- How a phase is shown. -/
def Phase.label : Phase → String
  | running => "RUN"
  | awaitingKey => "KEY"
  | halted => "HLT"

/-- The phase with a number. -/
def Phase.ofNumber? : Int → Option Phase
  | 0 => some running
  | 1 => some awaitingKey
  | 2 => some halted
  | _ => none

/-- How the phase with a number is shown; a number that no phase has is shown as `?`. -/
def phaseLabel (n : Int) : String :=
  match Phase.ofNumber? n with
  | some p => p.label
  | none => "?"

/-- What a machine is doing. -/
inductive Activity where
  /-- Executing instructions. -/
  | running
  /-- Waiting for a key that was not down at the last look, to put it into a register. -/
  | awaitingKey (register : Register) (seen : Keypad)
  /-- Stopped for good by a fault. -/
  | halted (fault : Fault)
  deriving DecidableEq, Inhabited

namespace Activity

/-- Which of the three states it is. -/
def phase : Activity → Phase
  | running => .running
  | awaitingKey _ _ => .awaitingKey
  | halted _ => .halted

/-- The fault that stopped the machine, if one did. -/
def fault? : Activity → Option Fault
  | halted f => some f
  | _ => none

end Activity

end Chip8
