import Chip8.Machine.Control

namespace Chip8

/-!
# Loading a program

A program that fits wipes out the past of the machine that it is loaded into; one that does
not fit leaves no trace.

* `Memory.toList_initial` — what lies in the memory of a machine just powered on.
* `Machine.load_of_fits`, `Machine.load_of_oversized` — the two ways in which a load can go.
* `Machine.toList_memory_load` — what lies in memory after a load.
* `ControlledMachine.load_of_fits`, `ControlledMachine.load_of_oversized` — the same two ways, for a
  machine that stores its run state.
* `load_forgets_or_refuses` — all of that in one statement.
-/

/-- The glyphs take eighty bytes. -/
theorem length_font : font.length = 80 := rfl

/-- A machine just powered on has its glyphs in memory and zeros around them. -/
theorem Memory.toList_initial :
    Memory.initial.toList = List.replicate 0x050 0 ++ font ++ List.replicate 0xF60 0 := by
  have fits : fontBase + font.length ≤ 4096 := by decide
  rw [initial, Bank.toList_writeFrom _ _ _ fits, Bank.toList_blank, List.take_replicate,
    List.drop_replicate, length_font]
  rfl

namespace Machine

variable {m : Machine} {program : List UInt8}

/-- A load of a program that fits resets the machine and puts the program into memory. -/
theorem load_of_fits (m : Machine) (fits : program.length ≤ programCapacity) :
    m.load program =
      { machine := { m.reset with memory := Memory.initial.writeFrom programStart program }
        notices := [.loaded program.length] } := by
  simp only [load, fits, if_true]

/-- A load of a program that does not fit does nothing. -/
theorem load_of_oversized (m : Machine) (large : programCapacity < program.length) :
    m.load program =
      { machine := m, fault? := some oversizedFault, notices := [.oversized program.length] } := by
  have unfit : ¬ program.length ≤ programCapacity := Nat.not_le_of_gt large
  simp only [load, unfit, if_false]

/-- The part of the initial memory that a program leaves alone before it. -/
theorem take_initial :
    Memory.initial.toList.take programStart =
      List.replicate 0x050 0 ++ font ++ List.replicate 0x160 0 := by
  have glyphs : (List.replicate 0x050 0 ++ font).length = 0x0A0 := by
    rw [List.length_append, List.length_replicate, length_font]
  rw [Memory.toList_initial, List.take_append, glyphs, List.take_of_length_le, List.take_replicate]
  · rfl
  · rw [glyphs]
    decide

/-- The part of the initial memory that a program leaves alone behind it. -/
theorem drop_initial (count : Nat) :
    Memory.initial.toList.drop (programStart + count) =
      List.replicate (programCapacity - count) 0 := by
  have glyphs : (List.replicate 0x050 0 ++ font).length = 0x0A0 := by
    rw [List.length_append, List.length_replicate, length_font]
  have left : 0xF60 - (programStart + count - 0x0A0) = programCapacity - count := by
    unfold programCapacity programStart
    omega
  rw [Memory.toList_initial, List.drop_append, glyphs, List.drop_of_length_le, List.drop_replicate,
    List.nil_append, left]
  · rw [glyphs]
    unfold programStart
    omega

/-- After a load, memory holds the glyphs, the program at its place, and zeros elsewhere. -/
theorem toList_memory_load (m : Machine) (fits : program.length ≤ programCapacity) :
    (m.load program).machine.memory.toList =
      List.replicate 0x050 0 ++ font ++ List.replicate 0x160 0 ++ program ++
        List.replicate (programCapacity - program.length) 0 := by
  have inside : programStart + program.length ≤ 4096 := by
    unfold programCapacity programStart at *
    omega
  rw [load_of_fits m fits]
  show (Memory.initial.writeFrom programStart program).toList = _
  rw [Bank.toList_writeFrom _ _ _ inside, take_initial, drop_initial]

end Machine

namespace ControlledMachine

variable {program : List UInt8}

/-- A load of a program that fits resets the stored run state too. -/
theorem load_of_fits (s : ControlledMachine) (fits : program.length ≤ programCapacity) :
    s.load program =
      { machine :=
          { rest := { s.rest.reset with memory := Memory.initial.writeFrom programStart program }
            control := s.control.reset }
        notices := [.loaded program.length] } := by
  rw [load, if_pos fits]
  rfl

/-- A load of a program that does not fit leaves it. -/
theorem load_of_oversized (s : ControlledMachine) (large : programCapacity < program.length) :
    s.load program =
      { machine := s
        fault := .ofFault Machine.oversizedFault
        notices := [.oversized program.length] } :=
  if_neg (Nat.not_le_of_gt large)

end ControlledMachine

/-- Loading forgets everything or nothing.  A program of at most 3584 bytes leaves the machine,
whatever has been done to it, as if it had been loaded into one just powered on and set up in
the same way: everything but memory is as at power-on, and memory holds the glyphs at `0x050`,
the program at `0x200` and zeros elsewhere.  A longer program is refused, and nothing at all
changes, whether the machine runs, waits for a key or has halted.  The fields in which a machine
stores its run state are forgotten or kept in the same way, those out of use as well. -/
theorem load_forgets_or_refuses (m : Machine) (program : List UInt8) :
    (program.length ≤ 3584 →
      m.load program = (Machine.powerOn m.dialect m.traceLimit m.random).load program ∧
      (m.load program).fault? = none ∧
      ∃ memory : Memory,
        (m.load program).machine =
          { Machine.powerOn m.dialect m.traceLimit m.random with memory := memory } ∧
        memory.toList =
          List.replicate 0x050 0 ++ font ++ List.replicate 0x160 0 ++ program ++
            List.replicate (3584 - program.length) 0) ∧
    (3584 < program.length →
      m.load program =
        { machine := m
          fault? := some ⟨.programTooLarge, 0, 0x200⟩
          notices := [.oversized program.length] }) ∧
    ∀ control : Control,
      let s : ControlledMachine := { rest := m, control := control }
      (program.length ≤ 3584 →
        s.load program =
          (ControlledMachine.powerOn m.dialect m.traceLimit m.random).load program ∧
        (s.load program).fault = {} ∧
        (s.load program).machine = { rest := (m.load program).machine, control := {} }) ∧
      (3584 < program.length →
        s.load program =
          { machine := s
            fault := ⟨some .programTooLarge, 0, 0x200⟩
            notices := [.oversized program.length] }) := by
  refine ⟨?_, ?_, ?_⟩
  · intro fits
    have here := Machine.load_of_fits m fits
    have fresh := Machine.load_of_fits (.powerOn m.dialect m.traceLimit m.random) fits
    rw [Machine.reset_eq_powerOn] at here fresh
    refine ⟨here.trans fresh.symm, ?_, ?_⟩
    · rw [here]
    · refine ⟨(m.load program).machine.memory, ?_, Machine.toList_memory_load m fits⟩
      rw [here]
  · intro large
    exact Machine.load_of_oversized m large
  · intro control s
    refine ⟨?_, ?_⟩
    · intro fits
      have here := s.load_of_fits fits
      have fresh := ControlledMachine.load_of_fits (.powerOn m.dialect m.traceLimit m.random) fits
      rw [Machine.reset_eq_powerOn, Control.reset_eq_powerOn] at here fresh
      refine ⟨here.trans fresh.symm, ?_, ?_⟩
      · rw [here]
      · rw [here, Machine.load_of_fits m fits, Machine.reset_eq_powerOn]
    · intro large
      exact s.load_of_oversized large

/-- A machine that waits for a key in a subroutine, with a byte put into its memory from
outside, takes a program of two bytes and refuses one that is a byte too long.  So does one that
has halted and still keeps the register and the keys of a wait. -/
theorem load_forgets_or_refuses_waiting :
    let m := (Machine.powerOn {} 5 default).after
      [.load [0x22, 0x02, 0xF3, 0x0A], .key 7 true, .poke 0x300 0xFF, .frame 4]
    let s : ControlledMachine :=
      { rest := m
        control :=
          { phase := .halted, fault := ⟨some .unknownInstruction, 0x0123, 0x0204⟩, register := 3
            seen := m.keys } }
    (m.activity.phase = .awaitingKey ∧ m.calls.depth = 1 ∧ m.dialect = {} ∧ m.traceLimit = 5) ∧
      m.load [0x12, 0x00] = (Machine.powerOn m.dialect m.traceLimit m.random).load [0x12, 0x00] ∧
      (m.load (List.replicate 3585 0xAA)).machine = m ∧
      (s.load [0x12, 0x00]).machine.control = {} ∧
      (s.load (List.replicate 3585 0xAA)).machine = s := by
  intro m s
  have facts : m.activity.phase = .awaitingKey ∧ m.calls.depth = 1 ∧ m.dialect = {} ∧
      m.traceLimit = 5 := by decide +kernel
  have large : 3584 < (List.replicate 3585 (0xAA : UInt8)).length := by
    rw [List.length_replicate]
    decide
  have taken := load_forgets_or_refuses m [0x12, 0x00]
  have refused := load_forgets_or_refuses m (List.replicate 3585 0xAA)
  refine ⟨facts, (taken.1 (by decide)).1, ?_, ?_, ?_⟩
  · rw [refused.2.1 large]
  · rw [((taken.2.2 s.control).1 (by decide)).2.2]
  · rw [(refused.2.2 s.control).2 large]

end Chip8
