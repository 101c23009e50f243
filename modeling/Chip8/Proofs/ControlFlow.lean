import Chip8.Proofs.CallStack
import Chip8.Proofs.Dispatch

namespace Chip8

/-!
# Where a program goes on

After an instruction a program goes on with the next one, or past it where the word skips, unless
the word names another place to go to.  All places are cells: the end of memory leads to its
beginning, wherever an instruction lies and whatever it writes over itself.

* `Machine.Skips`, `Machine.successor` — whether the word at the program counter skips, and where
  it leads, told by its digits and the machine before the step.
* `Machine.SkippedBy`, `Machine.skips_iff` — the same condition for each instruction.
* `Machine.pc_execute_eq_successor` — every instruction leads where its word says.
* `program_goes_on_by_word` — so does every step that reports no fault.
-/

namespace Machine

/-- Whether the word at the program counter skips the instruction after it.  Six words do, each on
a condition on registers or on the key that a register names by its last digit. -/
def Skips (m : Machine) : Prop :=
  let w := m.fetch m.pc
  let group := w.toNat / 0x1000
  let a := m.reg (registerX w)
  let b := m.reg (registerY w)
  let down := m.keys.isDown (Fin.ofNat 16 a.toNat)
  (group = 0x3 ∧ a = lowByte w) ∨ (group = 0x4 ∧ a ≠ lowByte w) ∨
    (group = 0x5 ∧ w.toNat % 0x10 = 0x0 ∧ a = b) ∨ (group = 0x9 ∧ w.toNat % 0x10 = 0x0 ∧ a ≠ b) ∨
    (group = 0xE ∧ w.toNat % 0x100 = 0x9E ∧ down = true) ∨
    (group = 0xE ∧ w.toNat % 0x100 = 0xA1 ∧ down = false)

instance (m : Machine) : Decidable m.Skips := inferInstanceAs (Decidable (_ ∨ _))

/-- Where the word at the program counter leads, if it raises no fault. -/
def successor (m : Machine) : Nat :=
  let w := m.fetch m.pc
  let target := w.toNat % 0x1000
  let onward := (m.pc.toNat + if m.Skips then 4 else 2) % 0x1000
  match w.toNat / 0x1000 with
  | 0x0 => if w = 0x00EE then (m.calls.live.getLast?.getD 0).toNat else onward
  | 0x1 | 0x2 => target
  | 0xB => (target + (m.reg (if m.dialect.has .jump then registerX w else 0)).toNat) % 0x1000
  | 0xF => if w.toNat % 0x100 = 0x0A then m.pc.toNat else onward
  | _ => onward

variable {m : Machine} {i : Instruction}

/-- The condition on which an instruction skips the next one, if it may. -/
def SkippedBy (m : Machine) : Instruction → Prop
  | .skipIfByte x byte => m.reg x = byte
  | .skipUnlessByte x byte => m.reg x ≠ byte
  | .skipIfEqual x y => m.reg x = m.reg y
  | .skipUnlessEqual x y => m.reg x ≠ m.reg y
  | .skipIfKey x => m.keys.isDown (m.namedKey x) = true
  | .skipUnlessKey x => m.keys.isDown (m.namedKey x) = false
  | _ => False

/-- The words that skip are those of the instructions that do, on the same conditions. -/
theorem skips_iff (written : m.fetch m.pc = i.encode)
    (known : i.form ≠ .native ∧ i.form ≠ .data) : m.Skips ↔ m.SkippedBy i := by
  unfold Skips
  rw [written]
  cases i
  case native => exact absurd rfl known.1
  case data => exact absurd rfl known.2
  case clear | ret => simp [Instruction.encode, SkippedBy]
  all_goals
    simp [Instruction.encode, group_wordOfTarget, group_wordOfByte, group_wordOfPair,
      mod_wordOfByte, mod_wordOfPair, lowByte_wordOfByte, registerX_wordOfByte,
      registerX_wordOfPair, registerY_wordOfPair, namedKey, SkippedBy]

/-- An instruction that is not refused leads where the word says that it is written as. -/
theorem pc_execute_eq_successor (written : m.fetch m.pc = i.encode)
    (accepted : m.refusal? i = none) : (m.execute i).pc.toNat = m.successor := by
  have known : i.form ≠ .native ∧ i.form ≠ .data := by
    cases i
    case native | data => cases accepted
    all_goals exact ⟨nofun, nofun⟩
  have skips := skips_iff written known
  -- each instruction is looked up by the digits that it has been written with
  unfold successor
  rw [written]
  cases i
  case native | data => cases accepted
  case ret =>
    have taken := m.refusal?_ret_eq_none_iff.mp accepted
    rw [← CallStack.top_eq_getLast _ taken]
    rfl
  case clear =>
    simp only [skips, SkippedBy, if_false]
    exact toNat_addressAfter m.pc 2
  case jump target | call target =>
    simp only [Instruction.encode, group_wordOfTarget, mod_wordOfTarget, Nat.reduceLT, execute,
      Address.toNat_toWord]
  case jumpOffset base =>
    simp only [Instruction.encode, group_wordOfTarget, mod_wordOfTarget, registerX_wordOfTarget,
      Nat.reduceLT, execute, Address.toNat_toWord]
    rfl
  case awaitKey x =>
    simp only [Instruction.encode, group_wordOfByte, mod_wordOfByte, Nat.reduceLT,
      UInt8.reduceToNat, if_true]
    rfl
  case skipIfByte | skipUnlessByte | skipIfEqual | skipUnlessEqual | skipIfKey | skipUnlessKey =>
    simp [skips, SkippedBy, Instruction.encode, group_wordOfByte, group_wordOfPair, execute,
      skipIf, toNat_addressAfter]
  -- all others go on with the next instruction, and their words skip nothing
  all_goals
    simp only [skips, SkippedBy, Instruction.encode, group_wordOfTarget, group_wordOfByte,
      group_wordOfPair, mod_wordOfByte, Nat.reduceLT, UInt8.reduceToNat, if_false]
    exact toNat_addressAfter m.pc 2

/-- The word at an address has its high byte there and its low byte in the cell after it. -/
theorem toNat_fetch (m : Machine) (address : UInt16) :
    (m.fetch address).toNat = (m.memory.read (Address.wrap address.toNat)).toNat * 0x100 +
      (m.memory.read (Address.wrap (address.toNat + 1))).toNat :=
  toNat_wordOfBytes _ _

end Machine

/-- A step that reports no fault leads where the word at the program counter says: to the target of
a jump or of a call, to the newest return address, past the next instruction on a condition that
holds, and otherwise to the next instruction, but a key wait stays where it is.  All of that is said
of the machine before the step, so it does not matter what the instruction writes, and in all of it
the beginning of memory follows its end; there the word in the last cell has its low byte. -/
theorem program_goes_on_by_word {m : Machine} (running : m.activity = .running)
    (calm : m.step.fault? = none) :
    m.step.machine.pc.toNat = m.successor ∧
      (m.pc = 0xFFF → (m.fetch m.pc).toNat =
        (m.memory.read 0xFFF).toNat * 0x100 + (m.memory.read 0).toNat) := by
  have accepted := Machine.refusal?_eq_none_of_calm running calm
  have written := eq_encode_of_decode (rfl : decode (m.fetch m.pc) = _)
  obtain ⟨timeline, after⟩ := Machine.exists_timeline_step running rfl accepted
  constructor
  · rw [after]
    exact Machine.pc_execute_eq_successor written accepted
  · intro last
    rw [m.toNat_fetch, last]
    rfl

/-- A program jumps to the last cell.  The word there is a skip, its low byte lies in the first
cell, and the condition holds, so the program goes on at the fourth cell of memory. -/
theorem program_goes_on_by_word_last_cell :
    let m := (Machine.powerOn {} 0 default).after [.load [0x1F, 0xFF], .poke 0xFFF 0x30, .step]
    m.pc = 0xFFF ∧ m.step.machine.pc.toNat = 0x003 ∧ (m.fetch m.pc).toNat = 0x3000 := by
  intro m
  have facts : m.activity = .running ∧ m.step.fault? = none ∧ m.pc = 0xFFF ∧
      m.successor = 0x003 ∧
      (m.memory.read 0xFFF).toNat * 0x100 + (m.memory.read 0).toNat = 0x3000 := by
    decide +kernel
  obtain ⟨running, calm, last, leads, bytes⟩ := facts
  obtain ⟨goes, reads⟩ := program_goes_on_by_word running calm
  exact ⟨last, goes.trans leads, (reads last).trans bytes⟩

end Chip8
